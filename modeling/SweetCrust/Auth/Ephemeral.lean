import SweetCrust.Lib.Expiring
import SweetCrust.Lib.Processes

/-!
# One-time values

`put` and `pop` of `ephemeral.py`.  A value is kept in Redis, which all workers share, and in
the map of the worker that put it.  `pop` reads Redis, deletes there, and takes the value out
of the map of its own worker; every statement is a step, and calls interleave.  So a value
that is popped on another worker stays in the map of the one that put it, and two calls that
overlap may both read it.

* `step` — the next statement of a call.
* `Once` — at most one call returns the value of a key, and none after its TTL.
* `once_of_apart` — it holds along every run whose calls on the key do not overlap, find no
  copy of the value on another worker, and end in time.
-/

namespace SweetCrust

open Runs Processes

namespace Ephemeral

/-- What the workers share, the map of each worker, and the clock. -/
structure Stores (ω 𝕜 : Type) where
  now : 𝕜
  redis : Expiring String String 𝕜
  /-- `_mem` of each worker. -/
  mem : ω → String → Option (𝕜 × String)
  /-- The worker that put a key, and the end of the TTL, counted from the last step of `put`.
  No step reads it. -/
  puts : String → Option (ω × 𝕜)

inductive Request (ω : Type)
  | put (worker : ω) (key value : String) (ttlSeconds : ℤ)
  | pop (worker : ω) (key : String)

/-- How far a call has got. -/
inductive Phase (𝕜 : Type)
  | start
  /-- `put` has written `_mem`. -/
  | written
  /-- `pop` has read Redis. -/
  | read (val : Option String)
  /-- `pop` has deleted there. -/
  | deleted (val : Option String)
  | returned (val : Option String) (time : 𝕜)
  deriving DecidableEq

def Request.key {ω : Type} : Request ω → String
  | .put _ key _ _ => key
  | .pop _ key => key

section Steps

variable {ω 𝕜 : Type} [DecidableEq ω] [Field 𝕜] [LinearOrder 𝕜]

/-- `_mem[key] = item`, or `_mem.pop(key, None)`. -/
def Stores.setMem (s : Stores ω 𝕜) (w : ω) (key : String) (item : Option (𝕜 × String)) :
    Stores ω 𝕜 :=
  { s with mem := Function.update s.mem w (Function.update (s.mem w) key item) }

/-- `redis_set`, which Redis refuses without a positive TTL. -/
def Stores.redisSet (s : Stores ω 𝕜) (key value : String) (ttl : ℤ) : Stores ω 𝕜 :=
  if 0 < ttl then { s with redis := s.redis.set key value (s.now + ttl) } else s

/-- `redis_delete`. -/
def Stores.redisDelete (s : Stores ω 𝕜) (key : String) : Stores ω 𝕜 :=
  { s with redis := s.redis.delete key }

/-- The TTL of the key ends that long from now. -/
def Stores.note (s : Stores ω 𝕜) (w : ω) (key : String) (ttl : ℤ) : Stores ω 𝕜 :=
  { s with puts := Function.update s.puts key (some (w, s.now + ttl)) }

/-- The value of an item that has not expired. -/
def unexpired (now : 𝕜) (item : Option (𝕜 × String)) : Option String :=
  (item.filter fun e => now ≤ e.1).map Prod.snd

/-- The next statement of a call. -/
def step (s : Stores ω 𝕜) : Request ω → Phase 𝕜 → Stores ω 𝕜 × Phase 𝕜
  | .put w key value ttl, .start =>
    ((s.setMem w key (some (s.now + ttl, value))).note w key ttl, .written)
  | .put w key value ttl, .written =>
    ((s.redisSet key value ttl).note w key ttl, .returned none s.now)
  | .pop _ key, .start => (s, .read (s.redis.get? s.now key))
  | .pop _ key, .read val => (s.redisDelete key, .deleted val)
  | .pop w key, .deleted val =>
    (s.setMem w key none, .returned (val.or (unexpired s.now (s.mem w key))) s.now)
  | _, phase => (s, phase)

variable {ι : Type} [DecidableEq ι]

/-- The next step of the call `i`. -/
def next (request : ι → Request ω) (i : ι) (s : Stores ω 𝕜) (l : Phase 𝕜) :
    Stores ω 𝕜 × Phase 𝕜 := step s (request i) l

/-- Time passes, or a call makes its next step. -/
def act (request : ι → Request ω) (c : Conf (Stores ω 𝕜) (Phase 𝕜) ι) :
    𝕜 ⊕ ι → Conf (Stores ω 𝕜) (Phase 𝕜) ι
  | .inl t => { c with shared := { c.shared with now := max c.shared.now t } }
  | .inr i => advance (next request) c i

/-- Nothing is stored, and no call has begun. -/
def fresh (now : 𝕜) : Conf (Stores ω 𝕜) (Phase 𝕜) ι where
  shared := { now, redis := .empty, mem := fun _ _ => none, puts := fun _ => none }
  loc := fun _ => .start

end Steps

/-! ## The property -/

section Properties

variable {ω 𝕜 ι : Type} [LinearOrder 𝕜]

def Phase.active : Phase 𝕜 → Bool
  | .start => false
  | .returned _ _ => false
  | _ => true

/-- The value that a call returned. -/
def Phase.value : Phase 𝕜 → Option String
  | .returned val _ => val
  | _ => none

/-- A copy of the value of the key, not expired, is in the map of the worker. -/
def CopyOn (key : String) (s : Stores ω 𝕜) (w : ω) : Prop :=
  ∃ expires value, s.mem w key = some (expires, value) ∧ s.now ≤ expires

/-- The value of a key is returned at most once, and not after its TTL. -/
structure Once (request : ι → Request ω) (key : String)
    (c : Conf (Stores ω 𝕜) (Phase 𝕜) ι) : Prop where
  unique : ∀ i j, (request i).key = key → (request j).key = key →
    (c.loc i).value.isSome → (c.loc j).value.isSome → i = j
  inTime : ∀ i v t, (request i).key = key → c.loc i = .returned (some v) t →
    ∃ w ends, c.shared.puts key = some (w, ends) ∧ t ≤ ends

/-- No other call on the key is under way. -/
def Alone (request : ι → Request ω) (key : String) (c : Conf (Stores ω 𝕜) (Phase 𝕜) ι)
    (i : ι) : Prop :=
  ∀ j, j ≠ i → (request j).key = key → (c.loc j).active = false

/-- A call on the key begins alone, a `pop` also with no copy on another worker, and a `pop`
that has a value returns it within the TTL. -/
def InTurn (request : ι → Request ω) (key : String) (c : Conf (Stores ω 𝕜) (Phase 𝕜) ι) (i : ι) :
    Request ω → Phase 𝕜 → Prop
  | .put _ _ _ _, .start => Alone request key c i
  | .pop w _, .start => Alone request key c i ∧ ∀ w', CopyOn key c.shared w' → w' = w
  | .pop _ _, .deleted (some _) =>
    ∀ w ends, c.shared.puts key = some (w, ends) → c.shared.now ≤ ends
  | _, _ => True

/-- The calls on the key are kept apart. -/
def Apart (request : ι → Request ω) (key : String) (c : Conf (Stores ω 𝕜) (Phase 𝕜) ι) :
    𝕜 ⊕ ι → Prop
  | .inl _ => True
  | .inr i => (request i).key = key → InTurn request key c i (request i) (c.loc i)

/-- The key is put by one call at most. -/
def FreshKey (request : ι → Request ω) (key : String) : Prop :=
  ∀ i j w v ttl w' v' ttl', request i = .put w key v ttl → request j = .put w' key v' ttl' → i = j

end Properties

/-! ## The assertions -/

section Assertions

variable {ω 𝕜 : Type} [LinearOrder 𝕜] {key : String} {s t : Stores ω 𝕜}

/-- A call that will still store the value of its key, or return it. -/
def Phase.pending : Phase 𝕜 → Bool
  | .written => true
  | .read val => val.isSome
  | .deleted val => val.isSome
  | _ => false

/-- Redis has no value under the key. -/
def Gone (key : String) (s : Stores ω 𝕜) : Prop := s.redis.get? s.now key = none

/-- Copies of the value come from the call that put it. -/
structure Stored (key : String) (s : Stores ω 𝕜) : Prop where
  mem : ∀ w expires v, s.mem w key = some (expires, v) →
    ∃ ends, s.puts key = some (w, ends) ∧ expires ≤ ends
  redis : ∀ e, s.redis key = some e → ∃ p, s.puts key = some p

/-- Two calls on the key: one at most is under way, and nothing is to come after one has
returned the value. -/
structure Beside (l m : Phase 𝕜) : Prop where
  active : l.active = true → m.active = false
  value : l.value.isSome → m.value = none ∧ m.pending = false

/-- From `s` to `t` copies of the value of the key can only vanish. -/
structure Fades (key : String) (s t : Stores ω 𝕜) : Prop where
  now : s.now ≤ t.now
  gone : Gone key s → Gone key t
  copies : ∀ w, CopyOn key t w → CopyOn key s w
  puts : t.puts key = s.puts key

/-- Stores that agree on the key. -/
theorem fades_of_eq (hnow : t.now = s.now) (hredis : t.redis key = s.redis key)
    (hmem : ∀ w, t.mem w key = s.mem w key) (hputs : t.puts key = s.puts key) :
    Fades key s t where
  now := hnow.ge
  gone h := by
    unfold Gone Expiring.get? at h ⊢
    rw [hredis, hnow]
    exact h
  copies w hw := by
    unfold CopyOn at hw ⊢
    rwa [hmem, hnow] at hw
  puts := hputs

theorem stored_of_eq (h : Stored key s) (hredis : t.redis key = s.redis key)
    (hmem : ∀ w, t.mem w key = s.mem w key) (hputs : t.puts key = s.puts key) : Stored key t where
  mem w expires v hv := by
    rw [hmem] at hv
    rw [hputs]
    exact h.mem w expires v hv
  redis e he := by
    rw [hredis] at he
    rw [hputs]
    exact h.redis e he

variable [Field 𝕜]

/-- What a call on the key goes by. -/
def Own (key : String) (s : Stores ω 𝕜) : Request ω → Phase 𝕜 → Prop
  | .put _ _ _ _, .start => s.puts key = none
  | .put w _ _ ttl, .written => ∃ ends, s.puts key = some (w, ends) ∧ ends ≤ s.now + ttl
  | .pop w _, .read val => (∀ w', CopyOn key s w' → w' = w) ∧ (val = none → Gone key s) ∧
      (val.isSome → ∃ p, s.puts key = some p)
  | .pop w _, .deleted val => (∀ w', CopyOn key s w' → w' = w) ∧ Gone key s ∧
      (val.isSome → ∃ p, s.puts key = some p)
  | _, .returned (some _) time => (Gone key s ∧ ∀ w, ¬ CopyOn key s w) ∧
      ∃ w ends, s.puts key = some (w, ends) ∧ time ≤ ends
  | _, _ => True

/-- What a call goes by survives copies that vanish. -/
theorem Fades.own [IsStrictOrderedRing 𝕜] (h : Fades key s t) {r : Request ω} {l : Phase 𝕜}
    (hown : Own key s r l) : Own key t r l := by
  obtain ⟨hnow, hgone, hcopies, hputs⟩ := h
  cases r with
  | put w k v ttl =>
    cases l with
    | start => exact hputs.trans hown
    | written =>
      obtain ⟨ends, hends, hle⟩ := hown
      exact ⟨ends, hputs.trans hends, by linarith⟩
    | read val => trivial
    | deleted val => trivial
    | returned val time =>
      cases val with
      | none => trivial
      | some v =>
        obtain ⟨⟨hredis, hmem⟩, hends⟩ := hown
        exact ⟨⟨hgone hredis, fun w hw => hmem w (hcopies w hw)⟩, by rw [hputs]; exact hends⟩
  | pop w k =>
    cases l with
    | start => trivial
    | written => trivial
    | read val =>
      obtain ⟨hmem, hredis, hval⟩ := hown
      exact ⟨fun w' hw => hmem w' (hcopies w' hw), fun hnone => hgone (hredis hnone),
        by rw [hputs]; exact hval⟩
    | deleted val =>
      obtain ⟨hmem, hredis, hval⟩ := hown
      exact ⟨fun w' hw => hmem w' (hcopies w' hw), hgone hredis, by rw [hputs]; exact hval⟩
    | returned val time =>
      cases val with
      | none => trivial
      | some v =>
        obtain ⟨⟨hredis, hmem⟩, hends⟩ := hown
        exact ⟨⟨hgone hredis, fun w hw => hmem w (hcopies w hw)⟩, by rw [hputs]; exact hends⟩

end Assertions

/-! ## The primitives at one key -/

section Deleting

variable {ω 𝕜 : Type} [LinearOrder 𝕜] {key : String} (s : Stores ω 𝕜)

/-- Deleting in Redis makes the value vanish there. -/
theorem fades_redisDelete (key : String) : Fades key s (s.redisDelete key) where
  now := le_refl _
  gone _ := Expiring.get?_of_none (Expiring.delete_self ..)
  copies _ hw := hw
  puts := rfl

theorem stored_redisDelete (h : Stored key s) : Stored key (s.redisDelete key) where
  mem := h.mem
  redis e he := by simp [Stores.redisDelete] at he

/-- The value that a map still has is that of a copy. -/
theorem copyOn_of_unexpired {w : ω} {v : String}
    (h : unexpired s.now (s.mem w key) = some v) :
    ∃ expires, s.mem w key = some (expires, v) ∧ s.now ≤ expires := by
  unfold unexpired at h
  obtain ⟨⟨expires, u⟩, hfilter, hu⟩ := Option.map_eq_some_iff.1 h
  obtain ⟨hmem, hle⟩ := Option.filter_eq_some_iff.1 hfilter
  cases hu
  exact ⟨expires, hmem, by simpa using hle⟩

end Deleting

section Primitives

variable {ω 𝕜 : Type} [DecidableEq ω] {key k : String} (s : Stores ω 𝕜) {w w' : ω}

theorem mem_setMem_self (w : ω) (item : Option (𝕜 × String)) :
    (s.setMem w key item).mem w key = item := by
  simp [Stores.setMem]

theorem mem_setMem_of_ne_worker (h : w' ≠ w) (item : Option (𝕜 × String)) :
    (s.setMem w key item).mem w' = s.mem w' := by
  simp [Stores.setMem, h]

theorem mem_setMem_of_ne (h : key ≠ k) (item : Option (𝕜 × String)) (w w' : ω) :
    (s.setMem w k item).mem w' key = s.mem w' key := by
  by_cases hw : w' = w
  · subst hw
    simp [Stores.setMem, h]
  · rw [mem_setMem_of_ne_worker s hw]

variable [LinearOrder 𝕜]

/-- Taking the item out of a map makes a copy vanish. -/
theorem fades_setMem_none (key : String) (w : ω) : Fades key s (s.setMem w key none) where
  now := le_refl _
  gone h := h
  copies w' hw := by
    by_cases hne : w' = w
    · subst hne
      obtain ⟨e, v, hmem, -⟩ := hw
      rw [mem_setMem_self] at hmem
      cases hmem
    · unfold CopyOn at hw
      rwa [mem_setMem_of_ne_worker s hne] at hw
  puts := rfl

theorem stored_setMem_none (h : Stored key s) (w : ω) : Stored key (s.setMem w key none) where
  mem w' e v hmem := by
    by_cases hne : w' = w
    · subst hne
      rw [mem_setMem_self] at hmem
      cases hmem
    · rw [mem_setMem_of_ne_worker s hne] at hmem
      exact h.mem w' e v hmem
  redis := h.redis

theorem not_copyOn_setMem_none (w : ω) : ¬ CopyOn key (s.setMem w key none) w := by
  rintro ⟨e, v, hmem, -⟩
  rw [mem_setMem_self] at hmem
  cases hmem

variable [Field 𝕜]

/-- A call on another key does not touch this one. -/
theorem step_of_ne {r : Request ω} (h : key ≠ r.key) (l : Phase 𝕜) :
    (step s r l).1.now = s.now ∧ (step s r l).1.redis key = s.redis key ∧
      (∀ w, (step s r l).1.mem w key = s.mem w key) ∧
      (step s r l).1.puts key = s.puts key := by
  cases r with
  | put w k v ttl =>
    have hk : key ≠ k := h
    cases l with
    | start => exact ⟨rfl, rfl, mem_setMem_of_ne s hk _ w, Function.update_of_ne hk ..⟩
    | written =>
      simp only [step, Stores.note, Stores.redisSet]
      split_ifs
      · exact ⟨rfl, Expiring.set_of_ne _ _ _ hk, fun _ => rfl, Function.update_of_ne hk ..⟩
      · exact ⟨rfl, rfl, fun _ => rfl, Function.update_of_ne hk ..⟩
    | _ => exact ⟨rfl, rfl, fun _ => rfl, rfl⟩
  | pop w k =>
    have hk : key ≠ k := h
    cases l with
    | read val => exact ⟨rfl, Expiring.delete_of_ne _ hk, fun _ => rfl, rfl⟩
    | deleted val => exact ⟨rfl, rfl, mem_setMem_of_ne s hk _ w, rfl⟩
    | _ => exact ⟨rfl, rfl, fun _ => rfl, rfl⟩

end Primitives

/-! ## Phases beside each other -/

section Phases

variable {ω 𝕜 : Type} {l m : Phase 𝕜}

theorem Phase.pending_of_inactive (h : l.active = false) : l.pending = false := by
  cases l <;> first | rfl | cases h

/-- What a call that is not under way has returned decides what may stand beside it. -/
theorem beside_of_inactive (hm : m.active = false)
    (hvalue : m.value.isSome → l.value = none ∧ l.pending = false) :
    Beside l m ∧ Beside m l := by
  refine ⟨⟨fun _ => hm, fun hl => ⟨?_, m.pending_of_inactive hm⟩⟩, ⟨fun h => ?_, hvalue⟩⟩
  · by_contra hne
    have hnone := (hvalue (Option.isSome_iff_ne_none.2 hne)).1
    rw [hnone] at hl
    cases hl
  · rw [hm] at h
    cases h

variable [LinearOrder 𝕜] [Field 𝕜] {key : String} {s : Stores ω 𝕜}

theorem own_pop_of_inactive {w : ω} {k : String} (hl : l.active = false) (hvalue : l.value = none) :
    Own key s (.pop w k) l := by
  cases l with
  | start => trivial
  | returned val time =>
    cases hvalue
    trivial
  | _ => cases hl

/-- Nothing is returned of a key that was not put. -/
theorem value_of_not_put {r : Request ω} (h : Own key s r l) (hputs : s.puts key = none) :
    l.value = none := by
  cases l with
  | returned val time =>
    cases val with
    | none => rfl
    | some v =>
      have hown : (Gone key s ∧ ∀ w, ¬ CopyOn key s w) ∧
          ∃ w ends, s.puts key = some (w, ends) ∧ time ≤ ends := by
        cases r <;> exact h
      obtain ⟨-, w, ends, hends, -⟩ := hown
      rw [hputs] at hends
      cases hends
  | _ => rfl

/-- Once the value is returned no copy is left. -/
theorem gone_of_value {r : Request ω} (h : Own key s r l) (hvalue : l.value.isSome) :
    Gone key s ∧ ∀ w, ¬ CopyOn key s w := by
  cases l with
  | returned val time =>
    cases val with
    | none => cases hvalue
    | some v => cases r <;> exact h.1
  | _ => cases hvalue

end Phases

/-! ## One step -/

section Steps

variable {ω 𝕜 ι : Type} [DecidableEq ω] [Field 𝕜] [LinearOrder 𝕜] [DecidableEq ι]
  {request : ι → Request ω} {key : String} {c : Conf (Stores ω 𝕜) (Phase 𝕜) ι} {i : ι}

/-- The assertions about the key. -/
abbrev Inv (request : ι → Request ω) (key : String) (c : Conf (Stores ω 𝕜) (Phase 𝕜) ι) : Prop :=
  Annotated (Stored key) (fun i s l => (request i).key = key → Own key s (request i) l)
    (fun i j l m => (request i).key = key → (request j).key = key → Beside l m) c

/-- What the step of a call on the key has to show. -/
theorem inv_of_step (h : Inv request key c) {s : Stores ω 𝕜} {l : Phase 𝕜}
    (halone : Alone request key c i) (hstep : next request i c.shared (c.loc i) = (s, l))
    (hstored : Stored key s)
    (hown : Own key s (request i) l)
    (hothers : ∀ j, j ≠ i → (request j).key = key → Own key s (request j) (c.loc j))
    (hvalue : ∀ j, j ≠ i → (request j).key = key → (c.loc j).value.isSome →
      l.value = none ∧ l.pending = false) : Inv request key (act request c (.inr i)) := by
  refine Annotated.advance h hstep hstored (fun _ => hown) hothers fun j hj => ?_
  constructor
  · intro _ hkj
    exact (beside_of_inactive (halone j hj hkj) (hvalue j hj hkj)).1
  · intro hkj _
    exact (beside_of_inactive (halone j hj hkj) (hvalue j hj hkj)).2

omit [DecidableEq ω] [DecidableEq ι] in
/-- A call under way is alone. -/
theorem alone_of_active (h : Inv request key c) (hkey : (request i).key = key)
    (hactive : (c.loc i).active = true) : Alone request key c i :=
  fun j hj hkj => (h.pair i j hj.symm hkey hkj).active hactive

/-- A call on another key. -/
theorem inv_of_ne [IsStrictOrderedRing 𝕜] (h : Inv request key c) (hkey : (request i).key ≠ key) :
    Inv request key (act request c (.inr i)) := by
  obtain ⟨hnow, hredis, hmem, hputs⟩ := step_of_ne c.shared (Ne.symm hkey) (c.loc i)
  have hstep : next request i c.shared (c.loc i) = (step c.shared (request i) (c.loc i)) := rfl
  refine Annotated.advance h hstep (stored_of_eq h.shared hredis hmem hputs)
    (fun hk => absurd hk hkey) (fun j _ hkj => ?_) fun j _ => ?_
  · exact (fades_of_eq hnow hredis hmem hputs).own (h.own j hkj)
  · exact ⟨fun hk => absurd hk hkey, fun _ hk => absurd hk hkey⟩

omit [DecidableEq ω] [DecidableEq ι] in
/-- Beside the call that puts the key there are only calls that pop it. -/
theorem pop_of_fresh (hfresh : FreshKey request key) {w : ω} {value : String} {ttl : ℤ}
    (hr : request i = .put w key value ttl) {j : ι} (hj : j ≠ i) (hkj : (request j).key = key) :
    ∃ w', request j = .pop w' key := by
  cases hrj : request j with
  | put w' k v t =>
    rw [hrj] at hkj
    have hk : k = key := hkj
    subst hk
    exact absurd (hfresh j i _ _ _ _ _ _ hrj hr) hj
  | pop w' k =>
    rw [hrj] at hkj
    exact ⟨w', congrArg _ hkj⟩

/-- `put` writes the map of its worker. -/
theorem inv_put (h : Inv request key c) (hfresh : FreshKey request key) {w : ω} {value : String}
    {ttl : ℤ} (hr : request i = .put w key value ttl) (hl : c.loc i = .start)
    (halone : Alone request key c i) : Inv request key (act request c (.inr i)) := by
  have hkey : (request i).key = key := by rw [hr]; rfl
  have hputs : c.shared.puts key = none := by
    have hown := h.own i hkey
    rwa [hr, hl] at hown
  have hnone : ∀ j, (request j).key = key → (c.loc j).value = none := fun j hkj =>
    value_of_not_put (h.own j hkj) hputs
  have hstep : next request i c.shared (c.loc i) = (((c.shared.setMem w key
      (some (c.shared.now + ttl, value))).note w key ttl), .written) := by
    rw [next, hr, hl]
    rfl
  refine inv_of_step h halone hstep ?_ ?_ ?_ ?_
  · refine ⟨fun w' e v hmem => ?_, fun e he => ?_⟩
    · by_cases hw : w' = w
      · subst hw
        have hitem : some (c.shared.now + ttl, value) = some (e, v) :=
          (mem_setMem_self c.shared w' _).symm.trans hmem
        cases hitem
        exact ⟨_, Function.update_self .., le_refl _⟩
      · obtain ⟨ends, hends, -⟩ := h.shared.mem w' e v
          ((congrFun (mem_setMem_of_ne_worker c.shared hw _) key).symm.trans hmem)
        rw [hputs] at hends
        cases hends
    · exact ⟨_, Function.update_self ..⟩
  · rw [hr]
    exact ⟨_, Function.update_self .., le_refl _⟩
  · intro j hj hkj
    obtain ⟨w', hpop⟩ := pop_of_fresh hfresh hr hj hkj
    rw [hpop]
    exact own_pop_of_inactive (halone j hj hkj) (hnone j hkj)
  · intro j _ hkj hvalue
    rw [hnone j hkj] at hvalue
    cases hvalue

/-- `put` writes Redis. -/
theorem inv_put_redis (h : Inv request key c) (hfresh : FreshKey request key) {w : ω}
    {value : String} {ttl : ℤ} (hr : request i = .put w key value ttl)
    (hl : c.loc i = .written) : Inv request key (act request c (.inr i)) := by
  have hkey : (request i).key = key := by rw [hr]; rfl
  have halone : Alone request key c i := alone_of_active h hkey (by rw [hl]; rfl)
  have hnone : ∀ j, j ≠ i → (request j).key = key → (c.loc j).value = none := by
    intro j hj hkj
    by_contra hvalue
    have hpending := ((h.pair j i hj hkj hkey).value (Option.isSome_iff_ne_none.2 hvalue)).2
    rw [hl] at hpending
    cases hpending
  obtain ⟨ends, hends, hle⟩ : ∃ ends, c.shared.puts key = some (w, ends) ∧
      ends ≤ c.shared.now + ttl := by
    have hown := h.own i hkey
    rwa [hr, hl] at hown
  have hstep : next request i c.shared (c.loc i) = (((c.shared.redisSet key value ttl).note w key
      ttl), .returned none c.shared.now) := by
    rw [next, hr, hl]
    rfl
  have hnow : (c.shared.redisSet key value ttl).now = c.shared.now := by
    unfold Stores.redisSet
    split_ifs <;> rfl
  have hmem : (c.shared.redisSet key value ttl).mem = c.shared.mem := by
    unfold Stores.redisSet
    split_ifs <;> rfl
  refine inv_of_step h halone hstep ?_ ?_ ?_ ?_
  · refine ⟨fun w' e v hitem => ?_, fun e he => ⟨_, Function.update_self ..⟩⟩
    obtain ⟨ends', hends', hle'⟩ := h.shared.mem w' e v
      ((congrFun (congrFun hmem w') key).symm.trans hitem)
    rw [hends] at hends'
    cases hends'
    refine ⟨_, Function.update_self .., ?_⟩
    rw [hnow]
    exact hle'.trans hle
  · rw [hr]
    trivial
  · intro j hj hkj
    obtain ⟨w', hpop⟩ := pop_of_fresh hfresh hr hj hkj
    rw [hpop]
    exact own_pop_of_inactive (halone j hj hkj) (hnone j hj hkj)
  · exact fun _ _ _ _ => ⟨rfl, rfl⟩

/-- `pop` reads Redis. -/
theorem inv_pop [IsStrictOrderedRing 𝕜] (h : Inv request key c) {w : ω}
    (hr : request i = .pop w key) (hl : c.loc i = .start) (halone : Alone request key c i)
    (hcopies : ∀ w', CopyOn key c.shared w' → w' = w) :
    Inv request key (act request c (.inr i)) := by
  have hstep : next request i c.shared (c.loc i) =
      (c.shared, .read (c.shared.redis.get? c.shared.now key)) := by
    rw [next, hr, hl]
    rfl
  refine inv_of_step h halone hstep h.shared ?_ (fun j _ hkj => h.own j hkj) ?_
  · rw [hr]
    refine ⟨hcopies, fun hnone => hnone, fun hsome => ?_⟩
    obtain ⟨v, hv⟩ := Option.isSome_iff_exists.1 hsome
    obtain ⟨d, hd, -⟩ := Expiring.get?_eq_some.1 hv
    exact h.shared.redis _ hd
  · intro j _ hkj hvalue
    have hgone : c.shared.redis.get? c.shared.now key = none :=
      (gone_of_value (h.own j hkj) hvalue).1
    rw [hgone]
    exact ⟨rfl, rfl⟩

/-- `pop` deletes in Redis. -/
theorem inv_pop_delete [IsStrictOrderedRing 𝕜] (h : Inv request key c) {w : ω}
    {val : Option String} (hr : request i = .pop w key) (hl : c.loc i = .read val) :
    Inv request key (act request c (.inr i)) := by
  have hkey : (request i).key = key := by rw [hr]; rfl
  have halone : Alone request key c i := alone_of_active h hkey (by rw [hl]; rfl)
  have hown : (∀ w', CopyOn key c.shared w' → w' = w) ∧ (val = none → Gone key c.shared) ∧
      (val.isSome → ∃ p, c.shared.puts key = some p) := by
    have hown := h.own i hkey
    rwa [hr, hl] at hown
  have hfades := fades_redisDelete c.shared key
  have hstep : next request i c.shared (c.loc i) = (c.shared.redisDelete key, .deleted val) := by
    rw [next, hr, hl]
    rfl
  refine inv_of_step h halone hstep (stored_redisDelete _ h.shared) ?_
    (fun j _ hkj => hfades.own (h.own j hkj)) ?_
  · rw [hr]
    exact ⟨hown.1, Expiring.get?_of_none (Expiring.delete_self ..), hown.2.2⟩
  · intro j hj hkj hvalue
    have hpending := ((h.pair j i hj hkj hkey).value hvalue).2
    rw [hl] at hpending
    exact ⟨rfl, hpending⟩

/-- `pop` takes the item out of the map of its worker, and returns. -/
theorem inv_pop_mem [IsStrictOrderedRing 𝕜] (h : Inv request key c) {w : ω}
    {val : Option String} (hr : request i = .pop w key) (hl : c.loc i = .deleted val)
    (hintime : val.isSome → ∀ w ends, c.shared.puts key = some (w, ends) → c.shared.now ≤ ends) :
    Inv request key (act request c (.inr i)) := by
  have hkey : (request i).key = key := by rw [hr]; rfl
  have halone : Alone request key c i := alone_of_active h hkey (by rw [hl]; rfl)
  obtain ⟨hcopies, hgone, hputs⟩ : (∀ w', CopyOn key c.shared w' → w' = w) ∧ Gone key c.shared ∧
      (val.isSome → ∃ p, c.shared.puts key = some p) := by
    have hown := h.own i hkey
    rwa [hr, hl] at hown
  have hfades := fades_setMem_none c.shared key w
  have hstep : next request i c.shared (c.loc i) = (c.shared.setMem w key none,
      .returned (val.or (unexpired c.shared.now (c.shared.mem w key))) c.shared.now) := by
    rw [next, hr, hl]
    rfl
  refine inv_of_step h halone hstep (stored_setMem_none _ h.shared w) ?_
    (fun j _ hkj => hfades.own (h.own j hkj)) ?_
  · rw [hr]
    cases hval : val.or (unexpired c.shared.now (c.shared.mem w key)) with
    | none => trivial
    | some v =>
      refine ⟨⟨hfades.gone hgone, fun w' hw => ?_⟩, ?_⟩
      · have hw' : w' = w := hcopies w' (hfades.copies w' hw)
        subst hw'
        exact not_copyOn_setMem_none c.shared w' hw
      · cases val with
        | some u =>
          obtain ⟨⟨w', ends⟩, hends⟩ := hputs rfl
          exact ⟨w', ends, hends, hintime rfl w' ends hends⟩
        | none =>
          obtain ⟨expires, hmem, hle⟩ := copyOn_of_unexpired c.shared hval
          obtain ⟨ends, hends, hle'⟩ := h.shared.mem w expires v hmem
          exact ⟨w, ends, hends, hle.trans hle'⟩
  · intro j hj hkj hvalue
    have hpending := ((h.pair j i hj hkj hkey).value hvalue).2
    rw [hl] at hpending
    have hval : val = none := by
      cases val with
      | none => rfl
      | some u => cases hpending
    have hitem : unexpired c.shared.now (c.shared.mem w key) = none := by
      cases hu : unexpired c.shared.now (c.shared.mem w key) with
      | none => rfl
      | some v =>
        obtain ⟨expires, hmem, hle⟩ := copyOn_of_unexpired c.shared hu
        exact absurd ⟨expires, v, hmem, hle⟩ ((gone_of_value (h.own j hkj) hvalue).2 w)
    rw [hval, hitem]
    exact ⟨rfl, rfl⟩

/-- Time makes copies vanish. -/
theorem inv_tick [IsStrictOrderedRing 𝕜] (h : Inv request key c) (t : 𝕜) :
    Inv request key (act request c (.inl t)) := by
  have hnow : c.shared.now ≤ max c.shared.now t := le_max_left _ _
  have hfades : Fades key c.shared { c.shared with now := max c.shared.now t } := by
    refine ⟨hnow, fun hgone => ?_, fun w hw => ?_, rfl⟩
    · by_contra hne
      obtain ⟨v, hv⟩ := Option.ne_none_iff_exists'.1 hne
      have hbefore : c.shared.redis.get? c.shared.now key = some v := Expiring.get?_anti hnow hv
      rw [show c.shared.redis.get? c.shared.now key = none from hgone] at hbefore
      cases hbefore
    · obtain ⟨e, v, hmem, hle⟩ := hw
      exact ⟨e, v, hmem, hnow.trans hle⟩
  exact ⟨stored_of_eq h.shared rfl (fun _ => rfl) rfl, fun j hkj => hfades.own (h.own j hkj),
    h.pair⟩

/-- A step of a call that is kept apart keeps the assertions. -/
theorem inv_act [IsStrictOrderedRing 𝕜] (hfresh : FreshKey request key) (h : Inv request key c)
    {e : 𝕜 ⊕ ι} (hapart : Apart request key c e) : Inv request key (act request c e) := by
  cases e with
  | inl t => exact inv_tick h t
  | inr i =>
    by_cases hkey : (request i).key = key
    · have hturn : InTurn request key c i (request i) (c.loc i) := hapart hkey
      have hstay : (next request i c.shared (c.loc i)) = (c.shared, c.loc i) →
          Inv request key (act request c (.inr i)) := by
        intro hstep
        refine Annotated.advance h hstep h.shared (h.own i) (fun j _ => h.own j) fun j hj => ?_
        exact ⟨h.pair i j hj.symm, h.pair j i hj⟩
      cases hr : request i with
      | put w k v ttl =>
        have hk : k = key := by rwa [hr] at hkey
        subst hk
        cases hl : c.loc i with
        | start =>
          rw [hr, hl] at hturn
          exact inv_put h hfresh hr hl hturn
        | written => exact inv_put_redis h hfresh hr hl
        | read val => exact hstay (by rw [next, hr, hl]; rfl)
        | deleted val => exact hstay (by rw [next, hr, hl]; rfl)
        | returned val time => exact hstay (by rw [next, hr, hl]; rfl)
      | pop w k =>
        have hk : k = key := by rwa [hr] at hkey
        subst hk
        cases hl : c.loc i with
        | start =>
          rw [hr, hl] at hturn
          exact inv_pop h hr hl hturn.1 hturn.2
        | written => exact hstay (by rw [next, hr, hl]; rfl)
        | read val => exact inv_pop_delete h hr hl
        | deleted val =>
          refine inv_pop_mem h hr hl fun hval => ?_
          obtain ⟨v, rfl⟩ := Option.isSome_iff_exists.1 hval
          rwa [hr, hl] at hturn
        | returned val time => exact hstay (by rw [next, hr, hl]; rfl)
    · exact inv_of_ne h hkey

end Steps

/-! ## Runs -/

section Runs

variable {ω 𝕜 ι : Type} [DecidableEq ω] [Field 𝕜] [LinearOrder 𝕜] [DecidableEq ι]
  {request : ι → Request ω} {key : String} {c : Conf (Stores ω 𝕜) (Phase 𝕜) ι}

omit [DecidableEq ω] [DecidableEq ι] in
theorem inv_fresh (now : 𝕜) : Inv request key (fresh now) where
  shared := ⟨fun _ _ _ h => (nomatch h), fun _ h => (nomatch h)⟩
  own i _ := by
    show Own key _ (request i) .start
    cases request i with
    | put w k v ttl => rfl
    | pop w k => trivial
  pair i j _ _ _ := ⟨fun h => (nomatch h), fun h => (nomatch h)⟩

omit [DecidableEq ω] [DecidableEq ι] in
theorem Once.of_inv (h : Inv request key c) : Once request key c where
  unique i j hi hj hvi hvj := by
    by_contra hne
    have hnone := ((h.pair i j hne hi hj).value hvi).1
    rw [hnone] at hvj
    cases hvj
  inTime i v t hi hloc := by
    have hown := h.own i hi
    rw [hloc] at hown
    cases hr : request i <;> rw [hr] at hown <;> exact hown.2

/-- Along a run whose calls on a fresh key are kept apart, its value is returned at most once,
and not after its TTL. -/
theorem once_of_apart [IsStrictOrderedRing 𝕜] (hfresh : FreshKey request key) (now : 𝕜)
    {es : List (𝕜 ⊕ ι)} (hapart : Stepwise (act request) (Apart request key) (fresh now) es) :
    Throughout (act request) (Once request key) (fresh now) es := by
  intro pre hpre
  have hinv : Throughout (act request) (Inv request key) (fresh now) es :=
    throughout_of_stepwise (P := Inv request key) (fun _ _ h hok => inv_act hfresh h hok)
      (inv_fresh now) hapart
  exact Once.of_inv (hinv pre hpre)

/-- The first call puts a value on the worker 0, the others pop it. -/
def popsOn (workers : ℕ → ℕ) : ℕ → Request ℕ
  | 0 => .put 0 "gauth:finish:x" "tokens" 120
  | i => .pop (workers i) "gauth:finish:x"

theorem popsOn_fresh (workers : ℕ → ℕ) : FreshKey (popsOn workers) "gauth:finish:x" := by
  intro i j w v ttl w' v' ttl' hi hj
  cases i with
  | zero =>
    cases j with
    | zero => rfl
    | succ j => cases hj
  | succ i => cases hi

/-- The value is popped on its own worker. -/
theorem once_popped : Throughout (act (popsOn fun _ => 0)) (Once (popsOn fun _ => 0)
    "gauth:finish:x") (fresh (0 : ℚ)) [.inr 0, .inr 0, .inl 60, .inr 1, .inr 1, .inr 1] := by
  refine once_of_apart (popsOn_fresh _) 0 ?_
  simp only [stepwise_cons]
  refine ⟨?_, ?_, ?_, ?_, ?_, ?_, stepwise_nil _ _⟩
  · intro _ j _ _
    rfl
  · intro _
    trivial
  · trivial
  · refine fun _ => ⟨?_, ?_⟩
    · intro j _ _
      cases j <;> rfl
    · rintro w' ⟨expires, v, hmem, -⟩
      cases w' with
      | zero => rfl
      | succ w' => cases hmem
  · intro _
    trivial
  · have hloc : ((run (act (popsOn fun _ => 0)) (fresh (0 : ℚ))
        [.inr 0, .inr 0, .inl 60, .inr 1, .inr 1]).loc 1) = .deleted (some "tokens") := by
      decide +kernel
    intro _
    show InTurn _ _ _ _ (popsOn (fun _ => 0) 1) ((run (act (popsOn fun _ => 0)) (fresh (0 : ℚ))
        [.inr 0, .inr 0, .inl 60, .inr 1, .inr 1]).loc 1)
    rw [hloc]
    intro w ends hends
    cases hends
    decide +kernel

/-- The value is popped on another worker, and again on its own; and two calls on its own
worker read Redis one after the other. -/
theorem popped_twice :
    ¬ Throughout (act (popsOn fun i => if i = 1 then 1 else 0))
        (Once (popsOn fun i => if i = 1 then 1 else 0) "gauth:finish:x") (fresh (0 : ℚ))
        [.inr 0, .inr 0, .inr 1, .inr 1, .inr 1, .inr 2, .inr 2, .inr 2] ∧
      ¬ Throughout (act (popsOn fun _ => 0)) (Once (popsOn fun _ => 0) "gauth:finish:x")
        (fresh (0 : ℚ)) [.inr 0, .inr 0, .inr 1, .inr 2, .inr 1, .inr 1, .inr 2, .inr 2] := by
  constructor
  · intro h
    have htwice := h.final.unique 1 2 rfl rfl (by decide +kernel) (by decide +kernel)
    cases htwice
  · intro h
    have htwice := h.final.unique 1 2 rfl rfl (by decide +kernel) (by decide +kernel)
    cases htwice

end Runs

end Ephemeral

end SweetCrust

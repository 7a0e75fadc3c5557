import Mathlib

/-!
# Rooms

Parties are members of rooms, and what is emitted to a room goes to the inbox of each of its
members.  Rooms are known by their names.  A party is described by a *seat*, which says which
rooms it has.

* `join`, `leave`, `send`, `emit`, `emitFrom`, `emits` — the operations.
* `inbox_emits` — what a party receives of several emissions, by its memberships.
* `Seated` — the memberships are those that the seats have, and the operations that keep it.
* `Seated.inbox_emits` — what a party receives, by its seat alone.
-/

/-- The rooms each party is a member of, and what it has received. -/
structure Rooms (ι ρ π : Type) where
  members : ι → Finset ρ
  inbox : ι → List π

namespace Rooms

variable {ι ρ π : Type}

/-- Nobody is in a room. -/
def empty : Rooms ι ρ π := ⟨fun _ => ∅, fun _ => []⟩

section Operations

variable [DecidableEq ι] [DecidableEq ρ]

def join (i : ι) (rs : List ρ) (s : Rooms ι ρ π) : Rooms ι ρ π :=
  { s with members := Function.update s.members i (s.members i ∪ rs.toFinset) }

/-- The party leaves every room. -/
def leave (i : ι) (s : Rooms ι ρ π) : Rooms ι ρ π :=
  { s with members := Function.update s.members i ∅ }

/-- To one party. -/
def send (i : ι) (p : π) (s : Rooms ι ρ π) : Rooms ι ρ π :=
  { s with inbox := Function.update s.inbox i (s.inbox i ++ [p]) }

/-- To every member of a room. -/
def emit (r : ρ) (p : π) (s : Rooms ι ρ π) : Rooms ι ρ π :=
  { s with inbox := fun i => if r ∈ s.members i then s.inbox i ++ [p] else s.inbox i }

/-- To every member of a room but the sender. -/
def emitFrom (i : ι) (r : ρ) (p : π) (s : Rooms ι ρ π) : Rooms ι ρ π :=
  { s with inbox := fun j => if r ∈ s.members j ∧ j ≠ i then s.inbox j ++ [p] else s.inbox j }

/-- The same to several rooms, one after the other. -/
def emits (rs : List ρ) (p : π) (s : Rooms ι ρ π) : Rooms ι ρ π :=
  rs.foldl (fun s r => s.emit r p) s

end Operations

/-! ## What an operation changes -/

section Lemmas

variable [DecidableEq ι] [DecidableEq ρ] (s : Rooms ι ρ π) {i j : ι} (r : ρ) (p : π)

@[simp] theorem inbox_join (rs : List ρ) : (s.join i rs).inbox = s.inbox := rfl

omit [DecidableEq ρ] in
@[simp] theorem inbox_leave : (s.leave i).inbox = s.inbox := rfl

omit [DecidableEq ρ] in
@[simp] theorem members_send : (s.send i p).members = s.members := rfl

omit [DecidableEq ι] in
@[simp] theorem members_emit : (s.emit r p).members = s.members := rfl

@[simp] theorem members_emitFrom : (s.emitFrom i r p).members = s.members := rfl

omit [DecidableEq ι] in
@[simp] theorem members_emits (rs : List ρ) : (s.emits rs p).members = s.members := by
  induction rs generalizing s with
  | nil => rfl
  | cons r rs ih => exact ih (s.emit r p)

theorem mem_join {rs : List ρ} : r ∈ (s.join i rs).members j ↔
    r ∈ s.members j ∨ j = i ∧ r ∈ rs := by
  by_cases hj : j = i
  · subst hj
    simp [join]
  · simp [join, hj]

omit [DecidableEq ρ] in
theorem mem_leave : r ∈ (s.leave i).members j ↔ r ∈ s.members j ∧ j ≠ i := by
  by_cases hj : j = i
  · subst hj
    simp [leave]
  · simp [leave, hj]

omit [DecidableEq ι] in
/-- A party receives one copy for each of the rooms that it is a member of. -/
theorem inbox_emits (rs : List ρ) (i : ι) : (s.emits rs p).inbox i =
    s.inbox i ++ List.replicate (rs.countP fun r => r ∈ s.members i) p := by
  induction rs generalizing s with
  | nil => simp [emits]
  | cons r rs ih =>
    have hstep : s.emits (r :: rs) p = (s.emit r p).emits rs p := rfl
    rw [hstep, ih, members_emit, List.countP_cons]
    by_cases hr : r ∈ s.members i
    · simp [emit, hr, List.replicate_succ]
    · simp [emit, hr]

end Lemmas

/-! ## Seats -/

section Seats

variable {α ν : Type} {has : α → ρ → Prop} {name : ρ → ν} {seat : ι → Option α}
  {s : Rooms ι ν π}

/-- A party is a member, by their names, of the rooms that its seat has, and of none without a
seat. -/
def Seated (has : α → ρ → Prop) (name : ρ → ν) (seat : ι → Option α) (s : Rooms ι ν π) : Prop :=
  ∀ i n, n ∈ s.members i ↔ ∃ a ∈ seat i, ∃ r, has a r ∧ name r = n

theorem seated_empty : Seated has name (fun _ => none) (empty : Rooms ι ν π) := by
  intro i n
  simp [empty]

theorem Seated.of_members {t : Rooms ι ν π} (h : Seated has name seat s)
    (ht : t.members = s.members) : Seated has name seat t := by
  unfold Seated
  rw [ht]
  exact h

variable [DecidableEq ι]

/-- A seat that widens is followed by joining the rooms that it gains. -/
theorem Seated.join [DecidableEq ν] (h : Seated has name seat s) {i : ι} {a : α} {rs : List ρ}
    (hrs : ∀ r, has a r ↔ (∃ b ∈ seat i, has b r) ∨ r ∈ rs) :
    Seated has name (Function.update seat i (some a)) (s.join i (rs.map name)) := by
  intro j n
  rw [mem_join, h j n]
  by_cases hj : j = i
  · subst hj
    simp only [true_and, Function.update_self, Option.mem_some_iff, exists_eq_left', hrs,
      List.mem_map]
    constructor
    · rintro (⟨b, hb, r, hr, hn⟩ | ⟨r, hr, hn⟩)
      · exact ⟨r, Or.inl ⟨b, hb, hr⟩, hn⟩
      · exact ⟨r, Or.inr hr, hn⟩
    · rintro ⟨r, ⟨b, hb, hr⟩ | hr, hn⟩
      · exact Or.inl ⟨b, hb, r, hr, hn⟩
      · exact Or.inr ⟨r, hr, hn⟩
  · simp [hj]

theorem Seated.leave (h : Seated has name seat s) (i : ι) :
    Seated has name (Function.update seat i none) (s.leave i) := by
  intro j n
  rw [mem_leave, h j n]
  by_cases hj : j = i
  · simp [hj]
  · simp [hj]

omit [DecidableEq ι] in
theorem Seated.mem_iff (h : Seated has name seat s) (hname : Function.Injective name) {i : ι}
    {r : ρ} : name r ∈ s.members i ↔ ∃ a ∈ seat i, has a r := by
  rw [h i (name r)]
  constructor
  · rintro ⟨a, ha, r', hr, hn⟩
    cases hname hn
    exact ⟨a, ha, hr⟩
  · rintro ⟨a, ha, hr⟩
    exact ⟨a, ha, r, hr, rfl⟩

omit [DecidableEq ι] in
/-- Where no two rooms have one name, what a party receives depends on its seat alone. -/
theorem Seated.inbox_emits [DecidableEq ν] [∀ a r, Decidable (has a r)]
    (h : Seated has name seat s) (hname : Function.Injective name) (rs : List ρ) (p : π) (i : ι) :
    (s.emits (rs.map name) p).inbox i = s.inbox i ++
      List.replicate ((seat i).elim 0 fun a => rs.countP fun r => has a r) p := by
  rw [Rooms.inbox_emits, List.countP_map]
  congr 2
  cases ha : seat i with
  | none =>
    refine List.countP_eq_zero.2 fun r _ => ?_
    have hr := h.mem_iff hname (i := i) (r := r)
    simp [hr, ha]
  | some a =>
    refine List.countP_congr fun r _ => ?_
    have hr := h.mem_iff hname (i := i) (r := r)
    simp [hr, ha]

end Seats

end Rooms

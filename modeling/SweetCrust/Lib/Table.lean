import Mathlib

/-!
# Tables with an auto-increment key

A database table as a program sees it through an object mapper: rows numbered by
a key that the database hands out in increasing order and never hands out twice.
The numbering is part of the type, so a table with two rows of one key, or with
a key that the next insertion would reuse, cannot be built.

* `get?` / `first?` / `last?` / `select` — look-up by key, the first and the last
  row satisfying a predicate, and all of them.
* `insert`, `insertAll`, `mapRows`, `modify`, `remove` — the writes.
* `All` — a property of every row, with one rule for each write.
* `total` — the sum of a quantity over all rows, with one law for each write
  (`total_insert`, `total_modify`).
* `modifyEach` — a row rewritten for each item of a list, with the same laws.
-/

namespace Tabular

/-- A table: rows in key order, and the key the next insertion gets. -/
structure Table (α : Type) where
  /-- The rows with their keys, oldest first. -/
  rows : List (ℕ × α)
  /-- The key of the next row. -/
  next : ℕ
  /-- Keys start at one. -/
  next_pos : 0 < next
  /-- No key is zero. -/
  key_pos : ∀ r ∈ rows, 0 < r.1
  /-- Keys handed out lie below the next one. -/
  key_lt : ∀ r ∈ rows, r.1 < next
  /-- Keys increase from row to row. -/
  sorted : (rows.map Prod.fst).Pairwise (· < ·)

namespace Table

variable {α : Type}

@[ext] theorem ext {t u : Table α} (hr : t.rows = u.rows) (hn : t.next = u.next) : t = u := by
  cases t; cases u; cases hr; cases hn; rfl

/-- The table without rows. -/
def empty : Table α where
  rows := []
  next := 1
  next_pos := Nat.one_pos
  key_pos := by simp
  key_lt := by simp
  sorted := by simp

instance : Inhabited (Table α) := ⟨empty⟩

/-- Append a row under the next key. -/
def insert (t : Table α) (a : α) : Table α where
  rows := t.rows ++ [(t.next, a)]
  next := t.next + 1
  next_pos := Nat.succ_pos _
  key_pos := by
    intro r hr
    rcases List.mem_append.1 hr with h | h
    · exact t.key_pos r h
    · rw [List.mem_singleton.1 h]; exact t.next_pos
  key_lt := by
    intro r hr
    rcases List.mem_append.1 hr with h | h
    · exact Nat.lt_succ_of_lt (t.key_lt r h)
    · rw [List.mem_singleton.1 h]; exact Nat.lt_succ_self _
  sorted := by
    rw [List.map_append, List.pairwise_append]
    refine ⟨t.sorted, by simp, ?_⟩
    intro i hi j hj
    obtain ⟨r, hr, rfl⟩ := List.mem_map.1 hi
    simp only [List.map_cons, List.map_nil, List.mem_singleton] at hj
    rw [hj]
    exact t.key_lt r hr

/-- Rewrite every row, keeping the keys. -/
def mapRows (t : Table α) (f : ℕ → α → α) : Table α where
  rows := t.rows.map fun r => (r.1, f r.1 r.2)
  next := t.next
  next_pos := t.next_pos
  key_pos := by
    intro r hr
    obtain ⟨q, hq, rfl⟩ := List.mem_map.1 hr
    exact t.key_pos q hq
  key_lt := by
    intro r hr
    obtain ⟨q, hq, rfl⟩ := List.mem_map.1 hr
    exact t.key_lt q hq
  sorted := by
    rw [List.map_map]
    exact t.sorted

/-- Rewrite the row with key `i`. -/
def modify (t : Table α) (i : ℕ) (f : α → α) : Table α :=
  t.mapRows fun j a => if j = i then f a else a

/-- A part of every row, under the same keys. -/
def map {β : Type} (t : Table α) (f : α → β) : Table β where
  rows := t.rows.map fun r => (r.1, f r.2)
  next := t.next
  next_pos := t.next_pos
  key_pos := by
    intro r hr
    obtain ⟨q, hq, rfl⟩ := List.mem_map.1 hr
    exact t.key_pos q hq
  key_lt := by
    intro r hr
    obtain ⟨q, hq, rfl⟩ := List.mem_map.1 hr
    exact t.key_lt q hq
  sorted := by
    rw [List.map_map]
    exact t.sorted

/-- Delete the rows that satisfy `p`. -/
def remove (t : Table α) (p : ℕ → α → Bool) : Table α where
  rows := t.rows.filter fun r => !p r.1 r.2
  next := t.next
  next_pos := t.next_pos
  key_pos := fun r hr => t.key_pos r (List.mem_of_mem_filter hr)
  key_lt := fun r hr => t.key_lt r (List.mem_of_mem_filter hr)
  sorted := t.sorted.sublist (List.filter_sublist.map _)

/-- Append rows, in order. -/
def insertAll (t : Table α) (l : List α) : Table α := l.foldl insert t

/-- A table with the given rows, keyed from one. -/
def ofList (l : List α) : Table α := empty.insertAll l

/-- The row with key `i`. -/
def get? (t : Table α) (i : ℕ) : Option α :=
  (t.rows.find? fun r => decide (r.1 = i)).map Prod.snd

/-- The oldest row satisfying `p`, with its key. -/
def first? (t : Table α) (p : α → Bool) : Option (ℕ × α) :=
  t.rows.find? fun r => p r.2

/-- All rows satisfying `p`, oldest first. -/
def select (t : Table α) (p : α → Bool) : List (ℕ × α) :=
  t.rows.filter fun r => p r.2

/-- The newest row satisfying `p`, with its key. -/
def last? (t : Table α) (p : α → Bool) : Option (ℕ × α) :=
  (t.select p).getLast?

/-- The sum of `f` over all rows. -/
def total {M : Type} [AddCommMonoid M] (t : Table α) (f : α → M) : M :=
  (t.rows.map fun r => f r.2).sum

/-! ## Keys -/

@[simp] theorem rows_empty : (empty : Table α).rows = [] := rfl

@[simp] theorem rows_insert (t : Table α) (a : α) :
    (t.insert a).rows = t.rows ++ [(t.next, a)] := rfl

@[simp] theorem next_insert (t : Table α) (a : α) : (t.insert a).next = t.next + 1 := rfl

@[simp] theorem rows_mapRows (t : Table α) (f : ℕ → α → α) :
    (t.mapRows f).rows = t.rows.map fun r => (r.1, f r.1 r.2) := rfl

@[simp] theorem next_mapRows (t : Table α) (f : ℕ → α → α) : (t.mapRows f).next = t.next := rfl

@[simp] theorem next_modify (t : Table α) (i : ℕ) (f : α → α) : (t.modify i f).next = t.next := rfl

theorem rows_modify (t : Table α) (i : ℕ) (f : α → α) :
    (t.modify i f).rows = t.rows.map fun r => (r.1, if r.1 = i then f r.2 else r.2) := rfl

theorem keys_nodup (t : Table α) : (t.rows.map Prod.fst).Nodup :=
  t.sorted.imp fun h => Nat.ne_of_lt h

/-- Two rows of one key are one row. -/
theorem row_unique {t : Table α} {i : ℕ} {a b : α} (ha : (i, a) ∈ t.rows) (hb : (i, b) ∈ t.rows) :
    a = b := by
  have := List.inj_on_of_nodup_map t.keys_nodup ha hb rfl
  exact (Prod.mk.inj this).2

theorem get?_eq_some {t : Table α} {i : ℕ} {a : α} : t.get? i = some a ↔ (i, a) ∈ t.rows := by
  unfold get?
  constructor
  · intro h
    obtain ⟨r, hr, rfl⟩ := Option.map_eq_some_iff.1 h
    have hk : r.1 = i := by simpa using List.find?_some hr
    rw [← hk]
    exact List.mem_of_find?_eq_some hr
  · intro h
    cases hf : t.rows.find? (fun r => decide (r.1 = i)) with
    | none => exact absurd (List.find?_eq_none.1 hf _ h) (by simp)
    | some r =>
      obtain ⟨j, b⟩ := r
      have hk : j = i := by simpa using List.find?_some hf
      subst hk
      rw [Option.map_some, row_unique (List.mem_of_find?_eq_some hf) h]

theorem get?_eq_none {t : Table α} {i : ℕ} : t.get? i = none ↔ ∀ a, (i, a) ∉ t.rows := by
  rw [Option.eq_none_iff_forall_not_mem]
  exact forall_congr' fun a => not_congr get?_eq_some

/-- Tables with the same keys and the same rows under them are the same. -/
theorem ext_get? {t u : Table α} (hkeys : t.rows.map Prod.fst = u.rows.map Prod.fst)
    (hnext : t.next = u.next) (h : ∀ i, t.get? i = u.get? i) : t = u := by
  refine ext (List.ext_getElem ?_ fun n ht hu => ?_) hnext
  · simpa using congrArg List.length hkeys
  · have hkey : (t.rows[n]).1 = (u.rows[n]).1 := by
      have hn := congrArg (fun l => l[n]?) hkeys
      simpa [ht, hu] using hn
    have hrow : t.get? (t.rows[n]).1 = some (t.rows[n]).2 := get?_eq_some.2 (List.getElem_mem ht)
    have hrow' : u.get? (u.rows[n]).1 = some (u.rows[n]).2 := get?_eq_some.2 (List.getElem_mem hu)
    rw [h, hkey, hrow'] at hrow
    exact Prod.ext hkey (Option.some.inj hrow).symm

@[simp] theorem get?_empty (i : ℕ) : (empty : Table α).get? i = none := rfl

/-- No row has the next key yet. -/
theorem get?_next (t : Table α) : t.get? t.next = none :=
  get?_eq_none.2 fun _ h => absurd (t.key_lt _ h) (lt_irrefl _)

theorem lt_next_of_get? {t : Table α} {i : ℕ} {a : α} (h : t.get? i = some a) : i < t.next :=
  t.key_lt _ (get?_eq_some.1 h)

@[simp] theorem get?_insert (t : Table α) (a : α) (i : ℕ) :
    (t.insert a).get? i = if i = t.next then some a else t.get? i := by
  unfold get?
  rw [rows_insert, List.find?_append]
  by_cases hi : i = t.next
  · subst hi
    have hnone : t.rows.find? (fun r => decide (r.1 = t.next)) = none := by
      have := t.get?_next
      unfold get? at this
      simpa only [Option.map_eq_none_iff] using this
    simp [hnone]
  · have hne : ¬ t.next = i := fun h => hi h.symm
    simp [hi, hne]

@[simp] theorem get?_mapRows (t : Table α) (f : ℕ → α → α) (i : ℕ) :
    (t.mapRows f).get? i = (t.get? i).map (f i) := by
  unfold get?
  rw [rows_mapRows, List.find?_map, Option.map_map, Option.map_map]
  have hcomp : (fun r : ℕ × α => decide (r.1 = i)) ∘ (fun r : ℕ × α => (r.1, f r.1 r.2)) =
      fun r : ℕ × α => decide (r.1 = i) := rfl
  rw [hcomp]
  cases h : t.rows.find? (fun r => decide (r.1 = i)) with
  | none => rfl
  | some r =>
    have hk : r.1 = i := by simpa using List.find?_some h
    rw [Option.map_some, Option.map_some, Function.comp_apply, Function.comp_apply, hk]

theorem get?_modify (t : Table α) (i : ℕ) (f : α → α) (j : ℕ) :
    (t.modify i f).get? j = if j = i then (t.get? j).map f else t.get? j := by
  rw [modify, get?_mapRows]
  by_cases h : j = i <;> simp [h]

@[simp] theorem get?_modify_self (t : Table α) (i : ℕ) (f : α → α) :
    (t.modify i f).get? i = (t.get? i).map f := by
  rw [get?_modify, if_pos rfl]

theorem get?_modify_of_ne (t : Table α) {i j : ℕ} (f : α → α) (h : j ≠ i) :
    (t.modify i f).get? j = t.get? j := by
  rw [get?_modify, if_neg h]

theorem modify_modify (t : Table α) (i : ℕ) (f g : α → α) :
    (t.modify i f).modify i g = t.modify i fun a => g (f a) := by
  refine ext ?_ rfl
  rw [rows_modify, rows_modify, rows_modify, List.map_map]
  refine List.map_congr_left fun r _ => ?_
  by_cases h : r.1 = i <;> simp [h]

/-- Writing what stands there changes nothing. -/
theorem modify_const_self {t : Table α} {i : ℕ} {a : α} (h : t.get? i = some a) :
    (t.modify i fun _ => a) = t := by
  refine ext ?_ rfl
  rw [rows_modify]
  refine (List.map_congr_left fun r hr => ?_).trans (List.map_id _)
  by_cases hi : r.1 = i
  · have ha : r.2 = a := by
      have hget := get?_eq_some.2 hr
      rw [hi, h] at hget
      exact (Option.some.inj hget).symm
    simp [hi, ← ha, Prod.ext_iff]
  · simp [hi]

theorem get?_remove (t : Table α) (p : ℕ → α → Bool) (i : ℕ) :
    (t.remove p).get? i = (t.get? i).filter fun a => !p i a := by
  cases h : t.get? i with
  | none =>
    refine get?_eq_none.2 fun a ha => ?_
    exact get?_eq_none.1 h a (List.mem_of_mem_filter ha)
  | some a =>
    have hmem := get?_eq_some.1 h
    cases hp : p i a with
    | true =>
      simp only [Option.filter, hp, Bool.not_true, Bool.false_eq_true, if_false]
      refine get?_eq_none.2 fun b hb => ?_
      have hb' := List.mem_filter.1 hb
      rw [row_unique hb'.1 hmem, hp] at hb'
      exact absurd hb'.2 (by simp)
    | false =>
      simp only [Option.filter, hp, Bool.not_false, if_true]
      exact get?_eq_some.2 (List.mem_filter.2 ⟨hmem, by simp [hp]⟩)

/-- The rows of a longer table are the old ones and the new ones. -/
theorem mem_rows_insertAll {t : Table α} {l : List α} {r : ℕ × α} (h : r ∈ (t.insertAll l).rows) :
    r ∈ t.rows ∨ r.2 ∈ l := by
  unfold insertAll at h
  induction l generalizing t with
  | nil => exact Or.inl h
  | cons a l ih =>
    rcases ih h with hr | hr
    · rcases List.mem_append.1 hr with hr | hr
      · exact Or.inl hr
      · rw [List.mem_singleton.1 hr]
        simp
    · exact Or.inr (List.mem_cons_of_mem a hr)

/-! ## The first and the last row with a property -/

theorem get?_of_first? {t : Table α} {p : α → Bool} {i : ℕ} {a : α}
    (h : t.first? p = some (i, a)) : t.get? i = some a ∧ p a = true := by
  unfold first? at h
  have hp := List.find?_some h
  exact ⟨get?_eq_some.2 (List.mem_of_find?_eq_some h), hp⟩

theorem first?_eq_none {t : Table α} {p : α → Bool} :
    t.first? p = none ↔ ∀ i a, t.get? i = some a → p a = false := by
  unfold first?
  rw [List.find?_eq_none]
  constructor
  · intro h i a ha
    simpa using h (i, a) (get?_eq_some.1 ha)
  · intro h r hr
    simpa using h r.1 r.2 (get?_eq_some.2 hr)

theorem get?_of_last? {t : Table α} {p : α → Bool} {i : ℕ} {a : α}
    (h : t.last? p = some (i, a)) : t.get? i = some a ∧ p a = true := by
  have hmem := List.mem_filter.1 (List.mem_of_getLast? h)
  exact ⟨get?_eq_some.2 hmem.1, hmem.2⟩

/-- There is a last row with a property where there is one. -/
theorem last?_isSome {t : Table α} {p : α → Bool} {i : ℕ} {a : α} (h : t.get? i = some a)
    (hp : p a = true) : (t.last? p).isSome := by
  have hmem : (i, a) ∈ t.select p := List.mem_filter.2 ⟨get?_eq_some.1 h, hp⟩
  unfold last?
  rw [List.getLast?_isSome]
  exact List.ne_nil_of_mem hmem

theorem select_insert (t : Table α) (a : α) (p : α → Bool) :
    (t.insert a).select p = t.select p ++ if p a then [(t.next, a)] else [] := by
  unfold select
  rw [rows_insert, List.filter_append]
  by_cases h : p a <;> simp [h]

/-- The rows with a property, after appending. -/
theorem map_select_insertAll (t : Table α) (l : List α) (p : α → Bool) :
    ((t.insertAll l).select p).map Prod.snd = (t.select p).map Prod.snd ++ l.filter p := by
  unfold insertAll
  induction l generalizing t with
  | nil => simp
  | cons a l ih =>
    rw [List.foldl_cons, ih, select_insert, List.map_append, List.append_assoc, List.filter_cons]
    by_cases h : p a <;> simp [h]

/-- Removing rows that are not there. -/
theorem remove_of_forall_not {t : Table α} {p : ℕ → α → Bool}
    (h : ∀ r ∈ t.rows, p r.1 r.2 = false) : t.remove p = t := by
  refine ext ?_ rfl
  refine List.filter_eq_self.2 fun r hr => ?_
  simp [h r hr]

/-- Once the rows with a property are removed, none is left. -/
theorem select_remove_select (t : Table α) (p : α → Bool) :
    (t.remove fun k _ => decide (k ∈ (t.select p).map Prod.fst)).select p = [] := by
  refine List.filter_eq_nil_iff.2 fun r hr hp => ?_
  obtain ⟨hmem, hkept⟩ := List.mem_filter.1 hr
  have hkey : r.1 ∈ (t.select p).map Prod.fst :=
    List.mem_map.2 ⟨r, List.mem_filter.2 ⟨hmem, hp⟩, rfl⟩
  simp only [hkey, decide_true, Bool.not_true, Bool.false_eq_true] at hkept

/-- An update that does not change the property selects the same rows, updated. -/
theorem select_mapRows (t : Table α) {f : ℕ → α → α} {p : α → Bool}
    (h : ∀ i a, p (f i a) = p a) :
    (t.mapRows f).select p = (t.select p).map fun r => (r.1, f r.1 r.2) := by
  unfold select
  rw [rows_mapRows, List.filter_map]
  congr 1
  exact List.filter_congr fun r _ => h r.1 r.2

/-- Rewriting a row without a property leaves the rows with it. -/
theorem select_modify_of_not {t : Table α} {i : ℕ} {f : α → α} {p : α → Bool}
    (h : ∀ a, t.get? i = some a → p a = false ∧ p (f a) = false) :
    (t.modify i f).select p = t.select p := by
  have hrow : ∀ r ∈ t.rows, r.1 = i → p r.2 = false ∧ p (f r.2) = false := fun r hr hi =>
    h r.2 (get?_eq_some.2 (hi ▸ hr))
  unfold select
  rw [rows_modify]
  generalize t.rows = rows at hrow
  induction rows with
  | nil => rfl
  | cons r rows ih =>
    have hrest := ih fun q hq => hrow q (List.mem_cons_of_mem r hq)
    rw [List.map_cons]
    by_cases hi : r.1 = i
    · obtain ⟨hp, hf⟩ := hrow r (List.mem_cons_self ..) hi
      rw [List.filter_cons_of_neg (by simp [hi, hf]), List.filter_cons_of_neg (by simp [hp]), hrest]
    · simp only [hi, if_false, List.filter_cons, hrest]

theorem last?_insert (t : Table α) (a : α) (p : α → Bool) :
    (t.insert a).last? p = if p a then some (t.next, a) else t.last? p := by
  unfold last?
  rw [select_insert]
  by_cases h : p a <;> simp [h]

theorem last?_mapRows (t : Table α) {f : ℕ → α → α} {p : α → Bool}
    (h : ∀ i a, p (f i a) = p a) :
    (t.mapRows f).last? p = (t.last? p).map fun r => (r.1, f r.1 r.2) := by
  unfold last?
  rw [select_mapRows t h, List.getLast?_map]

/-- Updating a row without touching the property keeps the last row with it. -/
theorem last?_modify (t : Table α) {i : ℕ} {f : α → α} {p : α → Bool} (h : ∀ a, p (f a) = p a) :
    (t.modify i f).last? p = (t.last? p).map fun r => (r.1, if r.1 = i then f r.2 else r.2) := by
  refine last?_mapRows t fun j a => ?_
  by_cases hj : j = i <;> simp [hj, h]

theorem first?_mapRows (t : Table α) {f : ℕ → α → α} {p : α → Bool}
    (h : ∀ i a, p (f i a) = p a) :
    (t.mapRows f).first? p = (t.first? p).map fun r => (r.1, f r.1 r.2) := by
  unfold first?
  rw [rows_mapRows, List.find?_map]
  congr 2
  funext r
  exact h r.1 r.2

theorem first?_modify (t : Table α) {i : ℕ} {f : α → α} {p : α → Bool} (h : ∀ a, p (f a) = p a) :
    (t.modify i f).first? p = (t.first? p).map fun r => (r.1, if r.1 = i then f r.2 else r.2) := by
  refine first?_mapRows t fun j a => ?_
  by_cases hj : j = i <;> simp [hj, h]

/-- Updating the first row with a property keeps it the first. -/
theorem first?_modify_self {t : Table α} {i : ℕ} {a : α} {f : α → α} {p : α → Bool}
    (h : t.first? p = some (i, a)) (hf : ∀ a, p (f a) = p a) :
    (t.modify i f).first? p = some (i, f a) := by
  rw [first?_modify t hf, h]
  simp

/-- Updating a row without a property leaves the first row with it. -/
theorem first?_modify_of_not {t : Table α} {i : ℕ} {b : α} {f : α → α} {p : α → Bool}
    (hi : t.get? i = some b) (hb : p b = false) (hf : ∀ a, p (f a) = p a) :
    (t.modify i f).first? p = t.first? p := by
  rw [first?_modify t hf]
  cases h : t.first? p with
  | none => rfl
  | some r =>
    obtain ⟨j, a⟩ := r
    obtain ⟨hget, ha⟩ := get?_of_first? h
    have hj : j ≠ i := by
      rintro rfl
      rw [hi] at hget
      cases hget
      rw [hb] at ha
      cases ha
    simp [hj]

/-- Updating the last row with a property keeps it the last. -/
theorem last?_modify_self {t : Table α} {i : ℕ} {a : α} {f : α → α} {p : α → Bool}
    (h : t.last? p = some (i, a)) (hf : ∀ a, p (f a) = p a) :
    (t.modify i f).last? p = some (i, f a) := by
  rw [last?_modify t hf, h]
  simp

/-- Updating a row without a property leaves the last row with it. -/
theorem last?_modify_of_not {t : Table α} {i : ℕ} {b : α} {f : α → α} {p : α → Bool}
    (hi : t.get? i = some b) (hb : p b = false) (hf : ∀ a, p (f a) = p a) :
    (t.modify i f).last? p = t.last? p := by
  rw [last?_modify t hf]
  cases h : t.last? p with
  | none => rfl
  | some r =>
    obtain ⟨j, a⟩ := r
    obtain ⟨hget, ha⟩ := get?_of_last? h
    have hj : j ≠ i := by
      rintro rfl
      rw [hi] at hget
      cases hget
      rw [hb] at ha
      cases ha
    simp [hj]

theorem first?_insert (t : Table α) (a : α) (p : α → Bool) :
    (t.insert a).first? p = (t.first? p).or (if p a then some (t.next, a) else none) := by
  unfold first?
  rw [rows_insert, List.find?_append, List.find?_singleton]

theorem first?_insert_of_some {t : Table α} {p : α → Bool} {r : ℕ × α} (a : α)
    (h : t.first? p = some r) : (t.insert a).first? p = some r := by
  rw [first?_insert, h, Option.some_or]

theorem map_insert {β : Type} (t : Table α) (a : α) (f : α → β) :
    (t.insert a).map f = (t.map f).insert (f a) := by
  refine Table.ext ?_ rfl
  show (t.rows ++ [(t.next, a)]).map _ = t.rows.map _ ++ [(t.next, f a)]
  rw [List.map_append]
  rfl

theorem first?_map {β : Type} (t : Table α) (f : α → β) (p : β → Bool) :
    (t.map f).first? p = (t.first? fun a => p (f a)).map fun r => (r.1, f r.2) := by
  unfold first?
  exact List.find?_map

/-! ## A property of every row -/

/-- Every row has the property. -/
def All (p : α → Prop) (t : Table α) : Prop := ∀ r ∈ t.rows, p r.2

instance (p : α → Prop) [DecidablePred p] (t : Table α) : Decidable (t.All p) :=
  inferInstanceAs (Decidable (∀ r ∈ t.rows, p r.2))

section All

variable {p : α → Prop} {t : Table α}

theorem All.get? (h : t.All p) {i : ℕ} {a : α} (ha : t.get? i = some a) : p a :=
  h _ (get?_eq_some.1 ha)

theorem All.imp {q : α → Prop} (h : t.All p) (hpq : ∀ a, p a → q a) : t.All q :=
  fun r hr => hpq _ (h r hr)

theorem All.insert (h : t.All p) {a : α} (ha : p a) : (t.insert a).All p := by
  intro r hr
  rcases List.mem_append.1 hr with hr | hr
  · exact h r hr
  · rw [List.mem_singleton.1 hr]
    exact ha

theorem All.insertAll (h : t.All p) {l : List α} (hl : ∀ a ∈ l, p a) : (t.insertAll l).All p := by
  intro r hr
  rcases mem_rows_insertAll hr with hr | hr
  · exact h r hr
  · exact hl _ hr

theorem All.mapRows (h : t.All p) {f : ℕ → α → α} (hf : ∀ i a, p a → p (f i a)) :
    (t.mapRows f).All p := by
  intro r hr
  obtain ⟨q, hq, rfl⟩ := List.mem_map.1 hr
  exact hf _ _ (h q hq)

theorem All.modify (h : t.All p) {i : ℕ} {f : α → α} (hf : ∀ a, p a → p (f a)) :
    (t.modify i f).All p := by
  refine h.mapRows fun j a ha => ?_
  split_ifs
  · exact hf a ha
  · exact ha

/-- Rewriting one row is a matter of that row. -/
theorem All.modify_row (h : t.All p) {i : ℕ} {f : α → α} (hf : ∀ a, t.get? i = some a → p (f a)) :
    (t.modify i f).All p := by
  intro r hr
  rw [rows_modify] at hr
  obtain ⟨q, hq, rfl⟩ := List.mem_map.1 hr
  by_cases hi : q.1 = i
  · simp only [hi, if_true]
    exact hf q.2 (get?_eq_some.2 (hi ▸ hq))
  · simp only [hi, if_false]
    exact h q hq

theorem All.remove (h : t.All p) (d : ℕ → α → Bool) : (t.remove d).All p :=
  fun r hr => h r (List.mem_of_mem_filter hr)

end All

/-! ## Sums over a table -/

section Totals

variable {M : Type} [AddCommGroup M]

@[simp] theorem total_empty (f : α → M) : (empty : Table α).total f = 0 := rfl

@[simp] theorem total_insert (t : Table α) (a : α) (f : α → M) :
    (t.insert a).total f = t.total f + f a := by
  simp [total]

@[simp] theorem total_insertAll (t : Table α) (l : List α) (f : α → M) :
    (t.insertAll l).total f = t.total f + (l.map f).sum := by
  unfold insertAll
  induction l generalizing t with
  | nil => simp
  | cons a l ih =>
    rw [List.foldl_cons, ih, total_insert]
    simp [add_assoc]

/-- Rewriting one row changes a sum by the new value minus the old one. -/
theorem total_modify {t : Table α} {i : ℕ} {a : α} (h : t.get? i = some a) (g : α → α)
    (f : α → M) : (t.modify i g).total f = t.total f - f a + f (g a) := by
  have hmem := get?_eq_some.1 h
  have hnd := t.keys_nodup
  unfold total
  rw [rows_modify]
  revert hmem hnd
  induction t.rows with
  | nil => intro hmem; exact absurd hmem (by simp)
  | cons r l ih =>
    intro hmem hnd
    rw [List.map_cons, List.nodup_cons] at hnd
    rcases List.mem_cons.1 hmem with rfl | hl
    · have hrest : (l.map fun r => (r.1, if r.1 = i then g r.2 else r.2)) = l := by
        conv_rhs => rw [← List.map_id l]
        refine List.map_congr_left fun q hq => ?_
        have hne : q.1 ≠ i := fun he => hnd.1 (List.mem_map.2 ⟨q, hq, he⟩)
        simp [hne]
      rw [List.map_cons, hrest]
      simp
      abel
    · have hne : r.1 ≠ i := fun he => hnd.1 (List.mem_map.2 ⟨_, hl, he.symm⟩)
      have := ih hl hnd.2
      simp only [List.map_cons, List.sum_cons, hne, if_false] at this ⊢
      rw [this]
      abel

end Totals

/-! ## Rewriting several rows -/

section ModifyEach

variable {β : Type}

/-- Rewrite a row for each item of a list: `f b` the row with key `key b`. -/
def modifyEach (key : β → ℕ) (f : β → α → α) (l : List β) (t : Table α) : Table α :=
  l.foldl (fun t b => t.modify (key b) (f b)) t

variable {key : β → ℕ} {f : β → α → α} {l : List β} {row : β → α} {t : Table α}

@[simp] theorem modifyEach_nil (key : β → ℕ) (f : β → α → α) (t : Table α) :
    modifyEach key f [] t = t := rfl

theorem modifyEach_cons (key : β → ℕ) (f : β → α → α) (b : β) (l : List β) (t : Table α) :
    modifyEach key f (b :: l) t = modifyEach key f l (t.modify (key b) (f b)) := rfl

/-- The rows of the other items are still there after one of them is rewritten. -/
theorem get?_modify_of_nodup {b : β} (hkeys : ((b :: l).map key).Nodup)
    (hrow : ∀ c ∈ b :: l, t.get? (key c) = some (row c)) :
    ∀ c ∈ l, (t.modify (key b) (f b)).get? (key c) = some (row c) := by
  intro c hc
  rw [List.map_cons, List.nodup_cons] at hkeys
  have hne : key c ≠ key b := fun h => hkeys.1 (h ▸ List.mem_map_of_mem hc)
  rw [get?_modify_of_ne t (f b) hne]
  exact hrow c (List.mem_cons_of_mem b hc)

theorem get?_modifyEach_of_notMem {i : ℕ} (h : i ∉ l.map key) :
    (modifyEach key f l t).get? i = t.get? i := by
  induction l generalizing t with
  | nil => rfl
  | cons b l ih =>
    rw [List.map_cons, List.mem_cons, not_or] at h
    rw [modifyEach_cons, ih h.2, get?_modify_of_ne t (f b) h.1]

/-- With one item for each row, every row is rewritten by its own item. -/
theorem get?_modifyEach (hkeys : (l.map key).Nodup)
    (hrow : ∀ b ∈ l, t.get? (key b) = some (row b)) {b : β} (hb : b ∈ l) :
    (modifyEach key f l t).get? (key b) = some (f b (row b)) := by
  induction l generalizing t with
  | nil => exact absurd hb (by simp)
  | cons c l ih =>
    rw [modifyEach_cons]
    have hrest := get?_modify_of_nodup (f := f) hkeys hrow
    rw [List.map_cons, List.nodup_cons] at hkeys
    rcases List.mem_cons.1 hb with rfl | hb'
    · rw [get?_modifyEach_of_notMem hkeys.1, get?_modify_self, hrow b (by simp), Option.map_some]
    · exact ih hkeys.2 hrest hb'

theorem All.modifyEach {p : α → Prop} (h : t.All p) (hkeys : (l.map key).Nodup)
    (hrow : ∀ b ∈ l, t.get? (key b) = some (row b)) (hf : ∀ b ∈ l, p (f b (row b))) :
    (modifyEach key f l t).All p := by
  induction l generalizing t with
  | nil => exact h
  | cons b l ih =>
    rw [modifyEach_cons]
    have hrest := get?_modify_of_nodup (f := f) hkeys hrow
    rw [List.map_cons, List.nodup_cons] at hkeys
    refine ih (h.modify_row fun a ha => ?_) hkeys.2 hrest fun c hc =>
      hf c (List.mem_cons_of_mem b hc)
    rw [hrow b (by simp)] at ha
    cases ha
    exact hf b (by simp)

/-- Rewriting several rows rewrites the table row by row. -/
theorem exists_mapRows (key : β → ℕ) (f : β → α → α) (l : List β) (t : Table α) :
    ∃ g, modifyEach key f l t = t.mapRows g := by
  induction l generalizing t with
  | nil =>
    refine ⟨fun _ a => a, ext ?_ rfl⟩
    simp
  | cons b l ih =>
    obtain ⟨g, hg⟩ := ih (t.modify (key b) (f b))
    refine ⟨fun i a => g i (if i = key b then f b a else a), ?_⟩
    rw [modifyEach_cons, hg]
    refine ext ?_ rfl
    rw [rows_mapRows, rows_modify, rows_mapRows, List.map_map]
    refine List.map_congr_left fun r _ => ?_
    by_cases hr : r.1 = key b <;> simp [hr]

theorem keys_modifyEach (key : β → ℕ) (f : β → α → α) (l : List β) (t : Table α) :
    (modifyEach key f l t).rows.map Prod.fst = t.rows.map Prod.fst := by
  obtain ⟨g, hg⟩ := exists_mapRows key f l t
  rw [hg, rows_mapRows, List.map_map]
  rfl

theorem next_modifyEach (key : β → ℕ) (f : β → α → α) (l : List β) (t : Table α) :
    (modifyEach key f l t).next = t.next := by
  obtain ⟨g, hg⟩ := exists_mapRows key f l t
  rw [hg, next_mapRows]

/-- A sum over the table changes by what each item changes on its own row. -/
theorem total_modifyEach {M : Type} [AddCommGroup M] (g : α → M) (hkeys : (l.map key).Nodup)
    (hrow : ∀ b ∈ l, t.get? (key b) = some (row b)) :
    (modifyEach key f l t).total g =
      t.total g + (l.map fun b => g (f b (row b)) - g (row b)).sum := by
  induction l generalizing t with
  | nil => simp
  | cons b l ih =>
    have hrest := get?_modify_of_nodup (f := f) hkeys hrow
    rw [List.map_cons, List.nodup_cons] at hkeys
    rw [modifyEach_cons, ih hkeys.2 hrest, total_modify (hrow b (by simp)), List.map_cons,
      List.sum_cons]
    abel

end ModifyEach

/-- The sum over the rows with a property is the sum in which the others count nothing. -/
theorem sum_select {M : Type} [AddCommMonoid M] (t : Table α) (p : α → Bool) (f : α → M) :
    ((t.select p).map fun r => f r.2).sum = t.total fun a => if p a then f a else 0 := by
  unfold select total
  induction t.rows with
  | nil => simp
  | cons r l ih =>
    by_cases h : p r.2
    · simp [h, ih]
    · simp [h, ih]

/-- A row's share of a sum of non-negative shares is at most the sum. -/
theorem le_total {M : Type} [AddCommMonoid M] [PartialOrder M] [IsOrderedAddMonoid M]
    {t : Table α} {i : ℕ} {a : α} (h : t.get? i = some a) {f : α → M}
    (hf : ∀ j b, t.get? j = some b → 0 ≤ f b) : f a ≤ t.total f := by
  refine List.single_le_sum ?_ _ (List.mem_map.2 ⟨(i, a), get?_eq_some.1 h, rfl⟩)
  intro x hx
  obtain ⟨r, hr, rfl⟩ := List.mem_map.1 hx
  exact hf r.1 r.2 (get?_eq_some.2 hr)

end Table

end Tabular

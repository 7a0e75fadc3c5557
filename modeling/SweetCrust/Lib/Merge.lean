import SweetCrust.Lib.Table

/-!
# Merging rows under a key

A table collects rows one after another: a row is merged into the first live row with its
key, by adding to that row's quantity, or it is appended.  What a row says beyond its key
and its quantity — its mark — stays that of the row that came first.

* `Merge` — the key, the mark and the quantity of a row, and how a quantity is added.
* `Collects` — the table holds what was put in, each under the first mark of its key.
* `collects_put` — putting one more row in.
* `sum_putAll` — what putting rows into any table does to a sum over its live rows.
-/

namespace Tabular

/-- How rows of a table are merged. -/
structure Merge (ρ κ μ : Type) where
  /-- The row takes part. -/
  live : ρ → Bool
  key : ρ → κ
  mark : ρ → μ
  quantity : ρ → ℤ
  more : ℤ → ρ → ρ
  live_more : ∀ q r, live (more q r) = live r
  key_more : ∀ q r, key (more q r) = key r
  mark_more : ∀ q r, mark (more q r) = mark r
  quantity_more : ∀ q r, quantity (more q r) = quantity r + q

namespace Merge

variable {ρ κ μ : Type} [DecidableEq κ] (M : Merge ρ κ μ)

/-- A live row with the key. -/
def hasKey (k : κ) (r : ρ) : Bool := M.live r ∧ M.key r = k

/-- The table with a row put in. -/
def put (r : ρ) (t : Table ρ) : Table ρ :=
  match t.first? (M.hasKey (M.key r)) with
  | some (i, _) => t.modify i (M.more (M.quantity r))
  | none => t.insert r

/-- The first of the rows with the key. -/
def first (l : List ρ) (k : κ) : Option ρ := l.find? fun r => M.key r = k

/-- The mark under which a row of the list is kept. -/
def firstMark (l : List ρ) (r : ρ) : μ := M.mark ((M.first l (M.key r)).getD r)

/-- The table with rows put in, one after another. -/
def putAll (l : List ρ) (t : Table ρ) : Table ρ := l.foldl (fun t r => M.put r t) t

/-- A sum over the live rows of a table. -/
def sum {A : Type} [AddCommGroup A] (g : κ → μ → ℤ →+ A) (t : Table ρ) : A :=
  t.total fun r => if M.live r then g (M.key r) (M.mark r) (M.quantity r) else 0

/-- The mark under which a table keeps one of the rows that are put in: that of its own first row
with the key, or else that of the first of these rows. -/
def keptMark (t : Table ρ) (l : List ρ) (r : ρ) : μ :=
  (((t.first? (M.hasKey (M.key r))).map fun x => M.mark x.2).or
    ((M.first l (M.key r)).map M.mark)).getD (M.mark r)

/-- The table holds the rows of the list, each under the first mark of its key. -/
structure Collects (t : Table ρ) (l : List ρ) : Prop where
  sums : ∀ {A : Type} [AddCommGroup A] (g : κ → μ → ℤ →+ A),
    t.total (fun r => if M.live r then g (M.key r) (M.mark r) (M.quantity r) else 0) =
      (l.map fun r => g (M.key r) (M.firstMark l r) (M.quantity r)).sum
  firsts : ∀ k, (t.first? (M.hasKey k)).map (fun r => M.mark r.2) = (M.first l k).map M.mark

variable {M} {t : Table ρ} {l : List ρ} {r a : ρ} {k : κ}

@[simp] theorem hasKey_eq_true : M.hasKey k r = true ↔ M.live r = true ∧ M.key r = k := by
  simp [hasKey]

theorem hasKey_more (q : ℤ) (r : ρ) : M.hasKey k (M.more q r) = M.hasKey k r := by
  simp [hasKey, M.live_more, M.key_more]

/-! ## The first row with a key -/

theorem first_concat (l : List ρ) (r : ρ) (k : κ) :
    M.first (l ++ [r]) k = (M.first l k).or (if M.key r = k then some r else none) := by
  unfold first
  rw [List.find?_append, List.find?_singleton]
  simp

/-- A row that is in the list already keeps its first mark. -/
theorem firstMark_concat_of_mem (ha : a ∈ l) (r : ρ) :
    M.firstMark (l ++ [r]) a = M.firstMark l a := by
  have hsome : (M.first l (M.key a)).isSome = true :=
    List.find?_isSome.2 ⟨a, ha, by simp⟩
  obtain ⟨b, hb⟩ := Option.isSome_iff_exists.1 hsome
  unfold firstMark
  rw [first_concat, hb, Option.some_or]

theorem firstMark_concat_self (l : List ρ) (r : ρ) :
    M.firstMark (l ++ [r]) r = M.firstMark l r := by
  unfold firstMark
  rw [first_concat, if_pos rfl]
  cases M.first l (M.key r) <;> rfl

/-- Rows with one key have one first mark. -/
theorem firstMark_eq_of_key_eq (hl : r ∈ l) (hkey : M.key r = M.key a) :
    M.firstMark l r = M.firstMark l a := by
  have hsome : (M.first l (M.key r)).isSome = true :=
    List.find?_isSome.2 ⟨r, hl, by simp⟩
  obtain ⟨b, hb⟩ := Option.isSome_iff_exists.1 hsome
  unfold firstMark
  rw [← hkey, hb]
  rfl

/-- The first mark of a row is the mark of a row with its key. -/
theorem exists_firstMark (hl : r ∈ l) :
    ∃ b ∈ l, M.key b = M.key r ∧ M.firstMark l r = M.mark b := by
  have hsome : (M.first l (M.key r)).isSome = true :=
    List.find?_isSome.2 ⟨r, hl, by simp⟩
  obtain ⟨b, hb⟩ := Option.isSome_iff_exists.1 hsome
  refine ⟨b, List.mem_of_find?_eq_some hb, by simpa using List.find?_some hb, ?_⟩
  unfold firstMark
  rw [hb]
  rfl

/-! ## Putting rows in -/

/-- A table without live rows has collected nothing. -/
theorem collects_nil (h : ∀ r ∈ t.rows, M.live r.2 = false) : M.Collects t [] where
  sums := by
    intro A _ g
    unfold Table.total
    rw [List.map_nil, List.sum_nil]
    refine List.sum_eq_zero fun x hx => ?_
    obtain ⟨r, hr, rfl⟩ := List.mem_map.1 hx
    simp [h r hr]
  firsts := by
    intro k
    have hnone : t.first? (M.hasKey k) = none := by
      refine List.find?_eq_none.2 fun r hr => ?_
      simp [h r hr]
    rw [hnone]
    rfl

/-- A live row has the key of a row that was put in. -/
theorem Collects.exists_of_live (h : M.Collects t l) {i : ℕ} (hr : t.get? i = some r)
    (hlive : M.live r = true) : ∃ a ∈ l, M.key a = M.key r := by
  have hsome : (t.first? (M.hasKey (M.key r))).isSome = true :=
    List.find?_isSome.2 ⟨(i, r), Table.get?_eq_some.1 hr, by simp [hlive]⟩
  have hfirst := congrArg Option.isSome (h.firsts (M.key r))
  rw [Option.isSome_map, Option.isSome_map, hsome] at hfirst
  obtain ⟨a, ha⟩ := Option.isSome_iff_exists.1 hfirst.symm
  exact ⟨a, List.mem_of_find?_eq_some ha, by simpa using List.find?_some ha⟩

/-- One more row adds its quantity under the first mark of its key. -/
theorem sum_concat {A : Type} [AddCommGroup A] (g : κ → μ → ℤ →+ A) (l : List ρ) (r : ρ) :
    ((l ++ [r]).map fun a => g (M.key a) (M.firstMark (l ++ [r]) a) (M.quantity a)).sum =
      (l.map fun a => g (M.key a) (M.firstMark l a) (M.quantity a)).sum +
        g (M.key r) (M.firstMark l r) (M.quantity r) := by
  rw [List.map_append, List.sum_append, List.map_singleton, List.sum_singleton,
    firstMark_concat_self]
  congr 2
  refine List.map_congr_left fun a ha => ?_
  rw [firstMark_concat_of_mem ha]

/-- The first marks once a row is put in. -/
theorem firsts_put (hr : M.live r = true) (t : Table ρ) (k : κ) :
    ((M.put r t).first? (M.hasKey k)).map (fun x => M.mark x.2) =
      ((t.first? (M.hasKey k)).map fun x => M.mark x.2).or
        (if M.key r = k then some (M.mark r) else none) := by
  cases hfound : t.first? (M.hasKey (M.key r)) with
  | none =>
    have hput : M.put r t = t.insert r := by simp only [put, hfound]
    rw [hput, Table.first?_insert]
    by_cases hk : M.key r = k
    · subst hk
      rw [hfound, Option.none_or, if_pos rfl, if_pos (by simp [hr])]
      rfl
    · have hnot : M.hasKey k r = false := by simp [hasKey, hk]
      rw [if_neg hk, hnot, Option.or_none, if_neg Bool.false_ne_true, Option.or_none]
  | some found =>
    obtain ⟨i, a⟩ := found
    have hput : M.put r t = t.modify i (M.more (M.quantity r)) := by simp only [put, hfound]
    have hmarks : ((t.modify i (M.more (M.quantity r))).first? (M.hasKey k)).map
        (fun x => M.mark x.2) = (t.first? (M.hasKey k)).map fun x => M.mark x.2 := by
      rw [Table.first?_modify t fun _ => hasKey_more _ _, Option.map_map]
      congr 1
      funext x
      by_cases hx : x.1 = i <;> simp [hx, M.mark_more]
    rw [hput, hmarks]
    by_cases hk : M.key r = k
    · subst hk
      rw [hfound, Option.map_some, Option.some_or]
    · rw [if_neg hk, Option.or_none]

/-- A row that is put in adds its quantity under the mark that it is kept under. -/
theorem sum_put {A : Type} [AddCommGroup A] (g : κ → μ → ℤ →+ A) (hr : M.live r = true)
    (t : Table ρ) :
    M.sum g (M.put r t) = M.sum g t + g (M.key r) (M.keptMark t [] r) (M.quantity r) := by
  unfold sum
  cases hfound : t.first? (M.hasKey (M.key r)) with
  | none =>
    have hput : M.put r t = t.insert r := by simp only [put, hfound]
    have hmark : M.keptMark t [] r = M.mark r := by simp [keptMark, hfound, first]
    rw [hput, Table.total_insert, hmark, if_pos hr]
  | some found =>
    obtain ⟨i, a⟩ := found
    have hput : M.put r t = t.modify i (M.more (M.quantity r)) := by simp only [put, hfound]
    have hmark : M.keptMark t [] r = M.mark a := by simp [keptMark, hfound]
    obtain ⟨hget, ha⟩ := Table.get?_of_first? hfound
    obtain ⟨hlive, hkey⟩ := hasKey_eq_true.1 ha
    rw [hput, Table.total_modify hget, hmark, M.live_more, M.key_more, M.mark_more,
      M.quantity_more, if_pos hlive, if_pos hlive, hkey, map_add]
    abel

/-- Putting a row in. -/
theorem collects_put (h : M.Collects t l) (hr : M.live r = true) :
    M.Collects (M.put r t) (l ++ [r]) := by
  refine ⟨fun g => ?_, fun k => ?_⟩
  · have hmark : M.keptMark t [] r = M.firstMark l r := by
      unfold keptMark firstMark
      rw [h.firsts]
      cases M.first l (M.key r) <;> rfl
    have hsum := sum_put g hr t
    rw [hmark] at hsum
    unfold sum at hsum
    rw [hsum, h.sums g, sum_concat]
  · rw [firsts_put hr, first_concat, h.firsts k]
    cases M.first l k with
    | some a => rfl
    | none => by_cases hk : M.key r = k <;> simp [hk]

/-! ## Putting rows into a table -/

theorem putAll_cons (r : ρ) (l : List ρ) (t : Table ρ) :
    M.putAll (r :: l) t = M.putAll l (M.put r t) := rfl

/-- The row that comes first is kept under a mark of its own choice, if the table has none. -/
theorem keptMark_cons_self (t : Table ρ) (r : ρ) (l : List ρ) :
    M.keptMark t (r :: l) r = M.keptMark t [] r := by
  unfold keptMark first
  rw [List.find?_cons_of_pos (by simp)]
  cases t.first? (M.hasKey (M.key r)) <;> simp

theorem keptMark_put (hr : M.live r = true) (t : Table ρ) (l : List ρ) (a : ρ) :
    M.keptMark (M.put r t) l a = M.keptMark t (r :: l) a := by
  unfold keptMark first
  rw [firsts_put hr, Option.or_assoc]
  congr 2
  by_cases hk : M.key r = M.key a
  · rw [if_pos hk, List.find?_cons_of_pos (by simpa using hk)]
    rfl
  · rw [if_neg hk, List.find?_cons_of_neg (by simpa using hk), Option.none_or]

/-- Rows with one key are kept under one mark. -/
theorem keptMark_eq_of_key_eq (t : Table ρ) (hl : r ∈ l) (hkey : M.key r = M.key a) :
    M.keptMark t l r = M.keptMark t l a := by
  have hsome : (M.first l (M.key r)).isSome = true :=
    List.find?_isSome.2 ⟨r, hl, by simp⟩
  obtain ⟨b, hb⟩ := Option.isSome_iff_exists.1 hsome
  unfold keptMark
  rw [← hkey, hb]
  cases t.first? (M.hasKey (M.key r)) <;> rfl

/-- Rows that are put in add their quantities under the marks that they are kept under. -/
theorem sum_putAll {A : Type} [AddCommGroup A] (g : κ → μ → ℤ →+ A)
    (hl : ∀ r ∈ l, M.live r = true) (t : Table ρ) : M.sum g (M.putAll l t) =
      M.sum g t + (l.map fun r => g (M.key r) (M.keptMark t l r) (M.quantity r)).sum := by
  induction l generalizing t with
  | nil => simp [putAll]
  | cons r l ih =>
    have hr : M.live r = true := hl r (List.mem_cons_self ..)
    rw [putAll_cons, ih (fun a ha => hl a (List.mem_cons_of_mem r ha)), sum_put g hr,
      List.map_cons, List.sum_cons, keptMark_cons_self, add_assoc]
    congr 3
    exact List.map_congr_left fun a _ => by rw [keptMark_put hr]

end Merge

end Tabular

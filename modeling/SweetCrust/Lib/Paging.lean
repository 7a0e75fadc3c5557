import Mathlib

/-!
# Pages of a sorted answer

Each page is cut out of the answer to a query of its own.  An answer holds the rows in the order
of a key; rows of one key come in any order, and not the same one each time.

* `Ordered`, `page`, `pages` — an answer, a page of it, and the pages of several answers.
* `Splits` — a place that falls between two rows of one key.
* `take_perm` — up to a place that does not, all answers hold the same rows.
* `map_pages` — the keys are the same in any case.
* `pages_perm_iff` — the pages hold each row once, whatever the answers, exactly if none of them
  ends at such a place.
-/

namespace Paging

variable {α K : Type} [LinearOrder K] (key : α → K)

/-- The rows in the order of their keys. -/
structure Ordered (rows l : List α) : Prop where
  perm : l.Perm rows
  sorted : l.Pairwise fun a b => key a ≤ key b

/-- The page number `k`, from zero on. -/
def page (l : List α) (size k : ℕ) : List α := (l.drop (k * size)).take size

/-- The first `n` pages, the page number `k` of the answer `answer k`. -/
def pages (answer : ℕ → List α) (size n : ℕ) : List α :=
  (List.range n).flatMap fun k => page (answer k) size k

/-- The place `m` falls between two rows that have the key of the row `a`. -/
def SplitsAt (rows : List α) (m : ℕ) (a : α) : Prop :=
  rows.countP (fun b => key b < key a) < m ∧ m < rows.countP (fun b => key b ≤ key a)

instance (rows : List α) (m : ℕ) (a : α) : Decidable (SplitsAt key rows m a) :=
  inferInstanceAs (Decidable (_ ∧ _))

/-- The place `m` falls between two rows of one key. -/
def Splits (rows : List α) (m : ℕ) : Prop := ∃ a ∈ rows, SplitsAt key rows m a

instance (rows : List α) (m : ℕ) : Decidable (Splits key rows m) :=
  inferInstanceAs (Decidable (∃ a ∈ rows, _))

variable {key} {rows l l' : List α} {m size n k : ℕ} {a : α}

/-! ## Rows in front -/

/-- What no row has behind one that does not have it holds of the rows in front. -/
theorem split_countP {P : α → Bool} (h : l.Pairwise fun a b => P b = true → P a = true) :
    l.take (l.countP P) = l.filter P ∧ l.drop (l.countP P) = l.filter fun a => !P a := by
  induction l with
  | nil => exact ⟨rfl, rfl⟩
  | cons a l ih =>
    obtain ⟨ha, hl⟩ := List.pairwise_cons.1 h
    obtain ⟨htake, hdrop⟩ := ih hl
    by_cases hP : P a = true
    · rw [List.countP_cons_of_pos hP, List.take_succ_cons, List.drop_succ_cons, htake, hdrop,
        List.filter_cons_of_pos hP, List.filter_cons_of_neg (by simp [hP])]
      exact ⟨rfl, rfl⟩
    · have hnone : ∀ b ∈ a :: l, ¬ P b = true := by
        intro b hb
        rcases List.mem_cons.1 hb with rfl | hb
        · exact hP
        · exact fun hPb => hP (ha b hb hPb)
      rw [List.countP_eq_zero.2 hnone, List.take_zero, List.drop_zero, List.filter_eq_nil_iff.2 hnone,
        List.filter_eq_self.2 fun b hb => by simpa using hnone b hb]
      exact ⟨rfl, rfl⟩

theorem Ordered.below (h : Ordered key rows l) (v : K) :
    l.Pairwise fun a b => decide (key b < v) = true → decide (key a < v) = true :=
  h.sorted.imp fun hle hb => decide_eq_true (hle.trans_lt (of_decide_eq_true hb))

theorem Ordered.upTo (h : Ordered key rows l) (v : K) :
    l.Pairwise fun a b => decide (key b ≤ v) = true → decide (key a ≤ v) = true :=
  h.sorted.imp fun hle hb => decide_eq_true (hle.trans (of_decide_eq_true hb))

/-- A place that splits no rows of one key is the number of rows up to the key in front of it. -/
theorem countP_eq_of_not_splits (h : Ordered key rows l) (hm : 0 < m) (hlt : m - 1 < l.length)
    {v : K} (hv : key l[m - 1] = v) (hsplit : ¬ Splits key rows m) :
    rows.countP (fun b => key b ≤ v) = m := by
  have hbelow : l.countP (fun b => key b < v) ≤ m - 1 := by
    have hnone : ∀ b ∈ l.drop (m - 1), ¬ decide (key b < v) = true := by
      have hsorted := h.sorted.sublist (List.drop_sublist (m - 1) l)
      rw [List.drop_eq_getElem_cons hlt] at hsorted ⊢
      intro b hb
      rcases List.mem_cons.1 hb with rfl | hb
      · simp [hv]
      · simpa [hv] using (List.pairwise_cons.1 hsorted).1 b hb
    conv_lhs => rw [← List.take_append_drop (m - 1) l]
    rw [List.countP_append, List.countP_eq_zero.2 hnone, Nat.add_zero]
    exact List.countP_le_length.trans (List.length_take_le _ _)
  have hupTo : m ≤ l.countP (fun b => key b ≤ v) := by
    have hall : ∀ b ∈ l.take m, decide (key b ≤ v) = true := by
      intro b hb
      obtain ⟨i, hi, rfl⟩ := List.mem_take_iff_getElem.1 hb
      rw [← hv]
      rcases Nat.lt_or_ge i (m - 1) with hi' | hi'
      · exact decide_eq_true (List.pairwise_iff_getElem.1 h.sorted i (m - 1) _ hlt hi')
      · have heq : i = m - 1 := by omega
        subst heq
        simp
    calc m = (l.take m).length := by rw [List.length_take]; omega
      _ = (l.take m).countP fun b => key b ≤ v := (List.countP_eq_length.2 hall).symm
      _ ≤ _ := (List.take_sublist m l).countP_le
  rw [h.perm.countP_eq] at hbelow hupTo
  by_contra hne
  refine hsplit ⟨l[m - 1], h.perm.subset (List.getElem_mem hlt), ?_, ?_⟩
  · rw [hv]
    omega
  · rw [hv]
    omega

/-- Up to a place that splits no rows of one key, two answers hold the same rows. -/
theorem take_perm (h : Ordered key rows l) (h' : Ordered key rows l')
    (hsplit : ¬ Splits key rows m) : (l.take m).Perm (l'.take m) := by
  rcases Nat.eq_zero_or_pos m with rfl | hm
  · simp
  by_cases hlt : m - 1 < l.length
  · have hcount := countP_eq_of_not_splits h hm hlt rfl hsplit
    have htake : ∀ {l'}, Ordered key rows l' →
        l'.take m = l'.filter fun b => key b ≤ key l[m - 1] := by
      intro l' h'
      have hsame := (split_countP (h'.upTo (key l[m - 1]))).1
      rwa [h'.perm.countP_eq, hcount] at hsame
    rw [htake h, htake h']
    exact (h.perm.trans h'.perm.symm).filter _
  · rw [List.take_of_length_le (by omega),
      List.take_of_length_le (by rw [h'.perm.length_eq, ← h.perm.length_eq]; omega)]
    exact h.perm.trans h'.perm.symm

/-! ## Pages -/

theorem take_succ_page : l.take ((k + 1) * size) = l.take (k * size) ++ page l size k := by
  rw [Nat.succ_mul, List.take_add, page]

theorem pages_succ (answer : ℕ → List α) :
    pages answer size (n + 1) = pages answer size n ++ page (answer n) size n := by
  unfold pages
  rw [List.range_succ, List.flatMap_append, List.flatMap_singleton]

/-- Two answers have the same keys in the same order. -/
theorem Ordered.map_eq (h : Ordered key rows l) (h' : Ordered key rows l') :
    l.map key = l'.map key := by
  have hkeys : ∀ {l}, Ordered key rows l → (l.map key).Pairwise (· ≤ ·) :=
    fun h => List.pairwise_map.2 h.sorted
  exact ((h.perm.trans h'.perm.symm).map key).eq_of_pairwise (fun _ _ _ _ => le_antisymm) (hkeys h)
    (hkeys h')

/-- The keys on the pages are those of any answer. -/
theorem map_pages {answer : ℕ → List α} (h : ∀ k, Ordered key rows (answer k))
    (hl : Ordered key rows l) (n : ℕ) :
    (pages answer size n).map key = (l.map key).take (n * size) := by
  induction n with
  | zero => simp [pages]
  | succ n ih =>
    have hpage : (page (answer n) size n).map key = page (l.map key) size n := by
      rw [page, List.map_take, List.map_drop, (h n).map_eq hl, page]
    rw [pages_succ, List.map_append, ih, hpage, ← take_succ_page]

/-- Where no page ends between rows of one key, the pages hold the first rows of any answer. -/
theorem pages_perm_take {answer : ℕ → List α} (h : ∀ k, Ordered key rows (answer k))
    (hsplit : ∀ k, ¬ Splits key rows (k * size)) (hl : Ordered key rows l) (n : ℕ) :
    (pages answer size n).Perm (l.take (n * size)) := by
  induction n with
  | zero => simp [pages]
  | succ n ih =>
    have hsame : (pages answer size n).Perm ((answer n).take (n * size)) :=
      ih.trans (take_perm hl (h n) (hsplit n))
    have hlonger : (pages answer size (n + 1)).Perm ((answer n).take ((n + 1) * size)) := by
      rw [pages_succ, take_succ_page]
      exact hsame.append_right _
    exact hlonger.trans (take_perm (h n) hl (hsplit (n + 1)))

/-! ## Pages that end between rows of one key -/

/-- There is an answer to every query. -/
theorem exists_ordered (key : α → K) (rows : List α) : ∃ l, Ordered key rows l := by
  have htotal : Std.Total fun a b => key a ≤ key b := ⟨fun a b => le_total _ _⟩
  have htrans : IsTrans α fun a b => key a ≤ key b := ⟨fun _ _ _ => le_trans⟩
  exact ⟨rows.insertionSort fun a b => key a ≤ key b, List.perm_insertionSort _ rows,
    List.pairwise_insertionSort _ rows⟩

/-- Between the rows below a key and the rows up to it are the rows of that key. -/
theorem Ordered.key_eq (h : Ordered key rows l) {v : K} {i : ℕ} (hi : i < l.length)
    (hlow : rows.countP (fun b => key b < v) ≤ i) (hhigh : i < rows.countP fun b => key b ≤ v) :
    key l[i] = v := by
  rw [← h.perm.countP_eq] at hlow hhigh
  refine le_antisymm ?_ (not_lt.1 ?_)
  · have hmem : l[i] ∈ l.take (l.countP fun b => key b ≤ v) :=
      List.mem_take_iff_getElem.2 ⟨i, by omega, rfl⟩
    rw [(split_countP (h.upTo v)).1] at hmem
    simpa using (List.mem_filter.1 hmem).2
  · have hmem : l[i] ∈ l.drop (l.countP fun b => key b < v) :=
      List.mem_drop_iff_getElem.2 ⟨i - l.countP fun b => key b < v, by omega, by
        congr 1; omega⟩
    rw [(split_countP (h.below v)).2] at hmem
    simpa using (List.mem_filter.1 hmem).2

/-- Two rows of one key that stand side by side may come the other way round. -/
theorem Ordered.swap {xs ys : List α} {x y : α} (h : Ordered key rows (xs ++ x :: y :: ys))
    (hxy : key x = key y) : Ordered key rows (xs ++ y :: x :: ys) := by
  refine ⟨((List.Perm.swap x y ys).append_left xs).trans h.perm, ?_⟩
  have hkeys : (xs ++ y :: x :: ys).map key = (xs ++ x :: y :: ys).map key := by simp [hxy]
  rw [← List.pairwise_map (f := key) (R := (· ≤ ·)), hkeys, List.pairwise_map]
  exact h.sorted

/-- Where a place falls between two rows of one key, one stands in front and one behind. -/
theorem exists_of_splits (h : Ordered key rows l) (hsplit : Splits key rows m) :
    ∃ xs x y ys, l = xs ++ x :: y :: ys ∧ xs.length + 1 = m ∧ key x = key y := by
  obtain ⟨a, -, hlow, hhigh⟩ := hsplit
  have hlength : m < l.length := by
    have hle := List.countP_le_length (p := fun b => decide (key b ≤ key a)) (l := rows)
    rw [h.perm.length_eq]
    omega
  obtain ⟨i, rfl⟩ : ∃ i, m = i + 1 := ⟨m - 1, by omega⟩
  have hi : i < l.length := by omega
  have hfront : key l[i] = key a := h.key_eq hi (by omega) (by omega)
  have hback : key l[i + 1] = key a := h.key_eq hlength (by omega) hhigh
  refine ⟨l.take i, l[i], l[i + 1], l.drop (i + 2), ?_, ?_, hfront.trans hback.symm⟩
  · rw [← List.drop_eq_getElem_cons hlength, ← List.drop_eq_getElem_cons hi,
      List.take_append_drop]
  · rw [List.length_take, min_eq_left hi.le]

theorem pages_const {answer : ℕ → List α} (h : ∀ k < n, answer k = l) :
    pages answer size n = l.take (n * size) := by
  induction n with
  | zero => simp [pages]
  | succ n ih =>
    rw [pages_succ, ih fun k hk => h k (by omega), h n (by omega), ← take_succ_page]

theorem pages_prefix_of_le (answer : ℕ → List α) {n' : ℕ} (hle : n ≤ n') :
    pages answer size n <+: pages answer size n' := by
  induction n', hle using Nat.le_induction with
  | base => exact List.prefix_refl _
  | succ n' _ ih =>
    rw [pages_succ]
    exact ih.trans (List.prefix_append _ _)

/-- Where a page ends between two rows of one key, they may come one way round on this page and the
other way round on the next. -/
theorem exists_twice (hsize : 0 < size) (hsplit : Splits key rows (k * size)) :
    ∃ answer, (∀ j, Ordered key rows (answer j)) ∧ ¬ (pages answer size (k + 1)).Nodup := by
  obtain ⟨l, hl⟩ := exists_ordered key rows
  obtain ⟨xs, x, y, ys, rfl, hlength, hxy⟩ := exists_of_splits hl hsplit
  refine ⟨fun j => if j < k then xs ++ x :: y :: ys else xs ++ y :: x :: ys, fun j => ?_, ?_⟩
  · show Ordered key rows (if j < k then _ else _)
    split_ifs
    · exact hl
    · exact hl.swap hxy
  · rw [pages_succ, pages_const fun j hj => if_pos hj, if_neg (lt_irrefl k)]
    have hfront : x ∈ (xs ++ x :: y :: ys).take (k * size) := by
      rw [← hlength, List.take_append, List.take_of_length_le (by omega)]
      simp
    have hnext : x ∈ page (xs ++ y :: x :: ys) size k := by
      obtain ⟨size, rfl⟩ : ∃ n, size = n + 1 := ⟨size - 1, by omega⟩
      rw [page, ← hlength, List.drop_append, List.drop_eq_nil_of_le (by omega)]
      simp
    exact fun hnodup => (List.nodup_append.1 hnodup).2.2 x hfront x hnext rfl

/-- Where no two rows have one key, no place falls between such rows. -/
theorem not_splits_of_nodup (h : (rows.map key).Nodup) : ¬ Splits key rows m := by
  intro hsplit
  obtain ⟨l, hl⟩ := exists_ordered key rows
  obtain ⟨xs, x, y, ys, rfl, -, hxy⟩ := exists_of_splits hl hsplit
  have hkeys : ((xs ++ x :: y :: ys).map key).Nodup := (hl.perm.map key).nodup_iff.2 h
  simp [hxy, List.nodup_append] at hkeys

/-- The pages hold each row once, whatever the answers, exactly if no page ends between two rows of
one key. -/
theorem pages_perm_iff (hrows : rows.Nodup) (hsize : 0 < size) (hn : rows.length ≤ n * size) :
    (∀ answer, (∀ k, Ordered key rows (answer k)) → (pages answer size n).Perm rows) ↔
      ∀ k, ¬ Splits key rows (k * size) := by
  constructor
  · intro h k hsplit
    obtain ⟨answer, hanswer, htwice⟩ := exists_twice hsize hsplit
    have hshort : k * size < n * size := by
      obtain ⟨a, -, -, hhigh⟩ := hsplit
      exact (hhigh.trans_le List.countP_le_length).trans_le hn
    have hle : k + 1 ≤ n := Nat.lt_of_mul_lt_mul_right hshort
    exact htwice (((h answer hanswer).nodup_iff.2 hrows).sublist (pages_prefix_of_le answer hle).sublist)
  · intro hsplit answer hanswer
    obtain ⟨l, hl⟩ := exists_ordered key rows
    have hperm := pages_perm_take hanswer hsplit hl n
    rw [List.take_of_length_le (by rw [hl.perm.length_eq]; exact hn)] at hperm
    exact hperm.trans hl.perm

end Paging

import Mathlib

/-!
# Spreading an amount over what is due

An amount is spread over items in order: each takes what is due to it, as far as the
amount reaches, and what is left goes on to the next.

* `share` — what one item takes, and `spread` — what each item of a list takes.
* `owed` — what is due to a list of items altogether.
* `sum_spread` — all of the amount is taken, up to what is owed.
* `spread_shape` — items take in full up to a point, and nothing after it.
* `mem_spread_iff` — an item takes of what those before it have left.
* `takings` — the items that take something.
* `spares_iff` — the items without a property take nothing exactly when the amount is used
  up by those before each of them.
* `sum_of_spares` — then the items with the property take what they would take alone.
* `mem_spread_add` — spreading one amount and then another is spreading their sum.
-/

namespace Spread

variable {ι M : Type} [AddCommGroup M] [LinearOrder M]

/-- What an item takes of an amount.  Nothing is due to an item that is due less than
nothing. -/
def share (amount due : M) : M := min amount (max due 0)

/-- What each item of a list takes of an amount, in order. -/
def spread (due : ι → M) (amount : M) : List ι → List (ι × M)
  | [] => []
  | i :: rest => (i, share amount (due i)) :: spread due (amount - share amount (due i)) rest

/-- What is due to a list of items. -/
def owed (due : ι → M) (l : List ι) : M := (l.map fun i => max (due i) 0).sum

/-! ## One item -/

section Share

variable {amount due : M}

theorem share_nonneg (h : 0 ≤ amount) : 0 ≤ share amount due := le_min h (le_max_right _ _)

theorem share_le_amount : share amount due ≤ amount := min_le_left _ _

theorem share_le_due : share amount due ≤ max due 0 := min_le_right _ _

theorem share_of_nonpos (h : 0 ≤ amount) (hdue : due ≤ 0) : share amount due = 0 := by
  rw [share, max_eq_right hdue, min_eq_right h]

theorem share_of_pos (hdue : 0 < due) : share amount due = min amount due := by
  rw [share, max_eq_left hdue.le]

@[simp] theorem share_zero : share 0 due = 0 := min_eq_left (le_max_right _ _)

/-- An item takes nothing when nothing is left, or nothing is due to it. -/
theorem share_eq_zero_iff (h : 0 ≤ amount) : share amount due = 0 ↔ amount = 0 ∨ due ≤ 0 := by
  constructor
  · intro hzero
    by_contra hnot
    rw [not_or, not_le] at hnot
    have hpos : 0 < min amount due := lt_min (h.lt_of_ne' hnot.1) hnot.2
    rw [share_of_pos hnot.2] at hzero
    exact hpos.ne' hzero
  · rintro (rfl | hdue)
    · exact share_zero
    · exact share_of_nonpos h hdue

end Share

/-! ## A list of items -/

variable {due : ι → M} {amount : M} {l : List ι}

@[simp] theorem spread_nil (due : ι → M) (amount : M) : spread due amount [] = [] := rfl

theorem spread_cons (due : ι → M) (amount : M) (i : ι) (l : List ι) :
    spread due amount (i :: l) =
      (i, share amount (due i)) :: spread due (amount - share amount (due i)) l := rfl

@[simp] theorem owed_nil (due : ι → M) : owed due [] = 0 := rfl

theorem owed_cons (due : ι → M) (i : ι) (l : List ι) :
    owed due (i :: l) = max (due i) 0 + owed due l := by
  rw [owed, List.map_cons, List.sum_cons]
  rfl

@[simp] theorem map_fst_spread (due : ι → M) (amount : M) (l : List ι) :
    (spread due amount l).map Prod.fst = l := by
  induction l generalizing amount with
  | nil => rfl
  | cons i l ih => rw [spread_cons, List.map_cons, ih]

theorem le_due_of_mem_spread {x : ι × M} (hx : x ∈ spread due amount l) :
    x.2 ≤ max (due x.1) 0 := by
  induction l generalizing amount with
  | nil => exact absurd hx (by simp)
  | cons i l ih =>
    rw [spread_cons, List.mem_cons] at hx
    rcases hx with rfl | hx
    · exact share_le_due
    · exact ih hx

/-- What is taken is in whatever grid the amount and the dues are in. -/
theorem forall_mem_spread {C : M → Prop} (hshare : ∀ a d, C a → C d → C (share a d))
    (hsub : ∀ a b, C a → C b → C (a - b)) (hamount : C amount) (hdue : ∀ i ∈ l, C (due i)) :
    ∀ x ∈ spread due amount l, C x.2 := by
  induction l generalizing amount with
  | nil => simp
  | cons i l ih =>
    have hi : C (share amount (due i)) := hshare _ _ hamount (hdue i (List.mem_cons_self ..))
    rw [spread_cons]
    intro x hx
    rcases List.mem_cons.1 hx with rfl | hx
    · exact hi
    · exact ih (hsub _ _ hamount hi) (fun j hj => hdue j (List.mem_cons_of_mem i hj)) x hx

/-- The items that take something, with what they take. -/
def takings (due : ι → M) (amount : M) (l : List ι) : List (ι × M) :=
  (spread due amount l).filter fun x => 0 < x.2

theorem mem_takings {x : ι × M} :
    x ∈ takings due amount l ↔ x ∈ spread due amount l ∧ 0 < x.2 := by
  rw [takings, List.mem_filter, decide_eq_true_eq]

theorem fst_mem_of_mem_spread {x : ι × M} (h : x ∈ spread due amount l) : x.1 ∈ l := by
  rw [← map_fst_spread due amount l]
  exact List.mem_map_of_mem h

theorem takings_cons_of_nonpos (h : 0 ≤ amount) {i : ι} (hdue : due i ≤ 0) (l : List ι) :
    takings due amount (i :: l) = takings due amount l := by
  unfold takings
  rw [spread_cons, share_of_nonpos h hdue, sub_zero, List.filter_cons_of_neg (by simp)]

theorem takings_cons_of_pos (h : 0 < amount) {i : ι} (hdue : 0 < due i) (l : List ι) :
    takings due amount (i :: l) =
      (i, min amount (due i)) :: takings due (amount - min amount (due i)) l := by
  unfold takings
  rw [spread_cons, share_of_pos hdue, List.filter_cons_of_pos (by simpa using ⟨h, hdue⟩)]

variable [IsOrderedAddMonoid M]

theorem owed_nonneg (due : ι → M) (l : List ι) : 0 ≤ owed due l := by
  induction l with
  | nil => exact le_rfl
  | cons i l ih =>
    rw [owed_cons]
    exact add_nonneg (le_max_right _ _) ih

/-- Less is owed to some of the items. -/
theorem owed_filter_le (p : ι → Bool) (due : ι → M) (l : List ι) :
    owed due (l.filter p) ≤ owed due l := by
  induction l with
  | nil => exact le_rfl
  | cons i l ih =>
    rw [owed_cons]
    by_cases h : p i
    · rw [List.filter_cons_of_pos h, owed_cons]
      exact add_le_add_right ih _
    · rw [List.filter_cons_of_neg h]
      exact le_add_of_nonneg_of_le (le_max_right _ _) ih

/-- What an item has left, and what the items after it are owed. -/
theorem min_sub_share (amount d : M) {o : M} (ho : 0 ≤ o) :
    share amount d + min (amount - share amount d) o = min amount (max d 0 + o) := by
  unfold share
  rcases le_total amount (max d 0) with hle | hle
  · rw [min_eq_left hle, sub_self, min_eq_left ho, add_zero,
      min_eq_left (le_add_of_le_of_nonneg hle ho)]
  · rw [min_eq_right hle, ← min_add_add_left, add_sub_cancel]

/-- Items take in full up to a point, and nothing after it. -/
theorem spread_shape (due : ι → M) (h : 0 ≤ amount) (l : List ι) :
    spread due amount l = l.map (fun i => (i, max (due i) 0)) ∨
      ∃ pre i post, l = pre ++ i :: post ∧
        ∃ rest, rest < max (due i) 0 ∧ spread due amount l =
          pre.map (fun j => (j, max (due j) 0)) ++ (i, rest) :: post.map fun j => (j, 0) := by
  induction l generalizing amount with
  | nil => exact Or.inl rfl
  | cons i l ih =>
    rw [spread_cons]
    rcases lt_or_ge amount (max (due i) 0) with hlt | hle
    · have hshare : share amount (due i) = amount := min_eq_left hlt.le
      have hzero : ∀ l : List ι, spread due 0 l = l.map fun j => (j, 0) := by
        intro l
        induction l with
        | nil => rfl
        | cons j l ih => rw [spread_cons, share_zero, sub_zero, ih, List.map_cons]
      refine Or.inr ⟨[], i, l, rfl, amount, hlt, ?_⟩
      rw [hshare, sub_self, hzero]
      rfl
    · have hshare : share amount (due i) = max (due i) 0 := min_eq_right hle
      rw [hshare]
      rcases ih (sub_nonneg.2 hle) with hall | ⟨pre, j, post, rfl, rest, hrest, hshape⟩
      · exact Or.inl (by rw [hall, List.map_cons])
      · exact Or.inr ⟨i :: pre, j, post, rfl, rest, hrest, by rw [hshape]; rfl⟩

/-- All of the amount is taken, up to what is owed. -/
theorem sum_spread (h : 0 ≤ amount) (l : List ι) :
    ((spread due amount l).map Prod.snd).sum = min amount (owed due l) := by
  induction l generalizing amount with
  | nil => rw [owed_nil, min_eq_right h]; rfl
  | cons i l ih =>
    rw [spread_cons, List.map_cons, List.sum_cons, ih (sub_nonneg.2 share_le_amount), owed_cons,
      min_sub_share _ _ (owed_nonneg due l)]

theorem nonneg_of_mem_spread (h : 0 ≤ amount) {x : ι × M} (hx : x ∈ spread due amount l) :
    0 ≤ x.2 := by
  induction l generalizing amount with
  | nil => exact absurd hx (by simp)
  | cons i l ih =>
    rw [spread_cons, List.mem_cons] at hx
    rcases hx with rfl | hx
    · exact share_nonneg h
    · exact ih (sub_nonneg.2 share_le_amount) hx

/-- An item takes of what those before it have left. -/
theorem mem_spread_iff (h : 0 ≤ amount) {x : ι × M} :
    x ∈ spread due amount l ↔ ∃ pre post, l = pre ++ x.1 :: post ∧
      x.2 = share (amount - min amount (owed due pre)) (due x.1) := by
  induction l generalizing amount with
  | nil => simp
  | cons i l ih =>
    have hleft : 0 ≤ amount - share amount (due i) := sub_nonneg.2 share_le_amount
    have hrest : ∀ pre, amount - share amount (due i) -
        min (amount - share amount (due i)) (owed due pre) =
          amount - min amount (owed due (i :: pre)) := by
      intro pre
      rw [owed_cons, ← min_sub_share _ _ (owed_nonneg due pre), sub_sub]
    rw [spread_cons, List.mem_cons, ih hleft]
    constructor
    · rintro (rfl | ⟨pre, post, rfl, hx⟩)
      · exact ⟨[], l, rfl, by simp [min_eq_right h]⟩
      · exact ⟨i :: pre, post, rfl, by rw [hx, hrest]⟩
    · rintro ⟨pre, post, hl, hx⟩
      cases pre with
      | nil =>
        obtain ⟨rfl, rfl⟩ := List.cons.inj hl
        left
        rw [owed_nil, min_eq_right h, sub_zero] at hx
        exact Prod.ext rfl hx
      | cons j pre =>
        obtain ⟨rfl, rfl⟩ := List.cons.inj hl
        exact Or.inr ⟨pre, post, rfl, by rw [hx, hrest]⟩

@[simp] theorem takings_zero (due : ι → M) (l : List ι) : takings due 0 l = [] := by
  refine List.filter_eq_nil_iff.2 fun x hx => ?_
  obtain ⟨pre, post, -, hshare⟩ := (mem_spread_iff le_rfl).1 hx
  rw [hshare, min_eq_left (owed_nonneg _ _), sub_zero, share_zero]
  simp

/-! ## Items that take nothing -/

/-- The items without the property take nothing. -/
def Spares (due : ι → M) (p : ι → Bool) (amount : M) (l : List ι) : Prop :=
  ∀ x ∈ spread due amount l, p x.1 = false → x.2 = 0

variable {p : ι → Bool}

/-- They take nothing exactly when the amount is used up by what comes before each of them
that something is due to. -/
theorem spares_iff (h : 0 ≤ amount) : Spares due p amount l ↔
    ∀ pre i post, l = pre ++ i :: post → p i = false → 0 < due i → amount ≤ owed due pre := by
  have hzero : ∀ pre i, share (amount - min amount (owed due pre)) (due i) = 0 ↔
      amount ≤ owed due pre ∨ due i ≤ 0 := by
    intro pre i
    rw [share_eq_zero_iff (sub_nonneg.2 (min_le_left _ _)), sub_eq_zero, eq_comm, min_eq_left_iff]
  constructor
  · intro hspares pre i post hl hp hdue
    have hmem : (i, share (amount - min amount (owed due pre)) (due i)) ∈ spread due amount l :=
      (mem_spread_iff h).2 ⟨pre, post, hl, rfl⟩
    exact ((hzero pre i).1 (hspares _ hmem hp)).resolve_right (not_le.2 hdue)
  · intro hall x hx hp
    obtain ⟨pre, post, hl, hshare⟩ := (mem_spread_iff h).1 hx
    rw [hshare, hzero]
    by_cases hdue : 0 < due x.1
    · exact Or.inl (hall pre x.1 post hl hp hdue)
    · exact Or.inr (not_lt.1 hdue)

/-- What the items with the property take of an amount. -/
def taken (due : ι → M) (p : ι → Bool) (amount : M) (l : List ι) : M :=
  ((spread due amount l).map fun x => if p x.1 then x.2 else 0).sum

/-- It is what those take that take something. -/
theorem sum_takings (h : 0 ≤ amount) (p : ι → Bool) (l : List ι) :
    ((takings due amount l).map fun x => if p x.1 then x.2 else 0).sum = taken due p amount l := by
  unfold takings taken
  induction l generalizing amount with
  | nil => rfl
  | cons i l ih =>
    rw [spread_cons, List.map_cons, List.sum_cons, ← ih (sub_nonneg.2 share_le_amount)]
    rcases (share_nonneg h).lt_or_eq with hpos | hzero
    · rw [List.filter_cons_of_pos (by simpa using hpos), List.map_cons, List.sum_cons]
    · rw [List.filter_cons_of_neg (by simp [← hzero]), ← hzero, ite_self, zero_add]

/-- All who take something take the amount, up to what is owed. -/
theorem sum_snd_takings (h : 0 ≤ amount) (l : List ι) :
    ((takings due amount l).map Prod.snd).sum = min amount (owed due l) := by
  rw [← sum_spread h l]
  have hall : ((takings due amount l).map fun x => if true then x.2 else 0).sum =
      taken due (fun _ => true) amount l := sum_takings h (fun _ => true) l
  simpa only [taken, if_true] using hall

theorem taken_le_owed (due : ι → M) (p : ι → Bool) (amount : M) (l : List ι) :
    taken due p amount l ≤ owed due (l.filter p) := by
  unfold taken
  induction l generalizing amount with
  | nil => exact le_rfl
  | cons i l ih =>
    rw [spread_cons, List.map_cons, List.sum_cons]
    by_cases h : p i
    · rw [List.filter_cons_of_pos h, owed_cons, if_pos h]
      exact add_le_add share_le_due (ih _)
    · rw [List.filter_cons_of_neg h, if_neg h, zero_add]
      exact ih _

/-- When the others take nothing, the items with the property take the amount, up to what is
owed to them. -/
theorem sum_of_spares (h : 0 ≤ amount) (hspares : Spares due p amount l) :
    taken due p amount l = min amount (owed due (l.filter p)) := by
  have hall : taken due p amount l = min amount (owed due l) := by
    rw [← sum_spread h l]
    refine congrArg List.sum (List.map_congr_left fun x hx => ?_)
    cases hp : p x.1 with
    | true => rfl
    | false => exact (hspares x hx hp).symm
  have hle := taken_le_owed due p amount l
  refine le_antisymm (le_min ?_ hle) ?_
  · rw [hall]
    exact min_le_left _ _
  · rw [hall]
    exact min_le_min_left amount (owed_filter_le p due l)

/-! ## One amount and then another -/

section Twice

variable {a b : M}

theorem share_add (ha : 0 ≤ a) (hb : 0 ≤ b) (d : M) :
    share a d + share b (d - share a d) = share (a + b) d := by
  rcases le_total d 0 with hd | hd
  · rw [share_of_nonpos ha hd, sub_zero, share_of_nonpos hb hd, share_of_nonpos (add_nonneg ha hb) hd,
      add_zero]
  · unfold share
    rw [max_eq_left hd]
    rcases le_total a d with hle | hle
    · rw [min_eq_left hle, max_eq_left (sub_nonneg.2 hle), ← min_add_add_left, add_sub_cancel]
    · rw [min_eq_right hle, sub_self, max_self, min_eq_right hb, add_zero,
        min_eq_right (hle.trans (le_add_of_nonneg_right hb))]

/-- What an item takes of two amounts, one after the other, it takes of their sum. -/
theorem mem_spread_add (ha : 0 ≤ a) (hb : 0 ≤ b) {after : ι × M → ι}
    (hafter : ∀ x ∈ spread due a l, due (after x) = due x.1 - x.2) :
    ∀ x ∈ spread due a l, ∃ y, (after x, y) ∈ spread due b ((spread due a l).map after) ∧
      (x.1, x.2 + y) ∈ spread due (a + b) l := by
  induction l generalizing a b with
  | nil => simp
  | cons i l ih =>
    rw [spread_cons] at hafter ⊢
    have hi : due (after (i, share a (due i))) = due i - share a (due i) :=
      hafter _ (List.mem_cons_self ..)
    have hadd := share_add ha hb (due i)
    have hleft : a + b - share (a + b) (due i) =
        a - share a (due i) + (b - share b (due i - share a (due i))) := by
      rw [← hadd]
      abel
    rw [List.map_cons, spread_cons, spread_cons, hi, hleft, ← hadd]
    intro x hx
    rcases List.mem_cons.1 hx with rfl | hx
    · exact ⟨_, List.mem_cons_self .., List.mem_cons_self ..⟩
    · obtain ⟨y, hy, hsum⟩ := ih (sub_nonneg.2 share_le_amount) (sub_nonneg.2 share_le_amount)
        (fun x hx => hafter x (List.mem_cons_of_mem _ hx)) x hx
      exact ⟨y, List.mem_cons_of_mem _ hy, List.mem_cons_of_mem _ hsum⟩

/-- Items that nothing is due to can be left out. -/
theorem mem_spread_filter (h : 0 ≤ amount) (hp : ∀ i ∈ l, p i = false → due i ≤ 0) {x : ι × M}
    (hx : x ∈ spread due amount l) (hpx : p x.1 = true) :
    x ∈ spread due amount (l.filter p) := by
  induction l generalizing amount with
  | nil => exact absurd hx (by simp)
  | cons i l ih =>
    have hrest : ∀ j ∈ l, p j = false → due j ≤ 0 := fun j hj =>
      hp j (List.mem_cons_of_mem i hj)
    rw [spread_cons] at hx
    cases hi : p i with
    | true =>
      rw [List.filter_cons_of_pos hi, spread_cons]
      rcases List.mem_cons.1 hx with rfl | hx
      · exact List.mem_cons_self ..
      · exact List.mem_cons_of_mem _ (ih (sub_nonneg.2 share_le_amount) hrest hx)
    | false =>
      rw [List.filter_cons_of_neg (by simp [hi])]
      rw [share_of_nonpos h (hp i (List.mem_cons_self ..) hi), sub_zero] at hx
      rcases List.mem_cons.1 hx with rfl | hx
      · rw [hi] at hpx
        cases hpx
      · exact ih h hrest hx

end Twice

end Spread

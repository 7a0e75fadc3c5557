import Mathlib

/-!
# Texts that may be missing

A service treats a missing text and an empty one alike, looks for a marker inside a
free-text note, cuts a note at a marker and trims separators.  These are the
operations it does that with, on character lists.

* `truthy` — `s or None`.
* `strip` — `s.strip()`.
* `Contains`, `afterFirst`, `removeAll`, `firstWord` — `t in s`, `s.split(t, 1)[1]`,
  `s.replace(t, "")`, `s.split()[0]`.
* `lower`, `upper`, `title`, `replaceChar` — `s.lower()`, `s.upper()`, `s.title()`,
  `s.replace("a", "b")`.
* `splitAt?` — `s.split(c, 1)`, when there is a `c`.

A marker that starts with a kept character survives when the text is extended at its end
and trimmed: `contains_strip_append`, `afterFirst_strip_append`.
-/

namespace Text

/-- A text that is neither missing nor empty: `s or None`. -/
def truthy (s : Option String) : Option String := s.filter fun t => t ≠ ""

@[simp] theorem truthy_none : truthy none = none := rfl

theorem truthy_some {s : String} (h : s ≠ "") : truthy (some s) = some s := by
  simp [truthy, Option.filter, h]

/-- `s.strip()` for the characters satisfying `p`, at both ends. -/
def strip (p : Char → Bool) (cs : List Char) : List Char :=
  (cs.dropWhile p).rdropWhile p

/-- `t in s`. -/
def Contains (t s : List Char) : Prop := t <:+: s

instance (t s : List Char) : Decidable (Contains t s) := inferInstanceAs (Decidable (t <:+: s))

/-- The rest of `s` behind the first occurrence of `t`: `s.split(t, 1)[1]`. -/
def afterFirst (t : List Char) : List Char → Option (List Char)
  | [] => if t = [] then some [] else none
  | c :: cs => if t <+: c :: cs then some ((c :: cs).drop t.length) else afterFirst t cs

/-- `s` without the occurrences of `t`, read from the left: `s.replace(t, "")`.
`skip` characters belong to an occurrence already found. -/
def removeFrom (t : List Char) : ℕ → List Char → List Char
  | _, [] => []
  | skip + 1, _ :: cs => removeFrom t skip cs
  | 0, c :: cs =>
    if t ≠ [] ∧ t <+: c :: cs then removeFrom t (t.length - 1) cs else c :: removeFrom t 0 cs

/-- `s.replace(t, "")`. -/
def removeAll (t s : List Char) : List Char := removeFrom t 0 s

/-- The first run of characters that are not separators: `s.split()[0]`. -/
def firstWord (space : Char → Bool) (s : List Char) : Option (List Char) :=
  match (s.dropWhile space).takeWhile fun c => !space c with
  | [] => none
  | w => some w

/-- `c.lower()`.  Of the letters outside ASCII only the Kelvin sign has a lower case in it;
the others are left alone. -/
def lowerChar (c : Char) : Char := if c.toNat = 0x212A then 'k' else c.toLower

/-- `s.lower()`, as far as a comparison with an ASCII text can tell. -/
def lower (s : List Char) : List Char := s.map lowerChar

/-- `c.upper()`.  Outside ASCII these are the letters whose upper case is in ASCII; the others
are left alone. -/
def upperChar (c : Char) : List Char :=
  match c.toNat with
  | 0xDF => ['S', 'S']
  | 0x131 => ['I']
  | 0x17F => ['S']
  | 0xFB00 => ['F', 'F']
  | 0xFB01 => ['F', 'I']
  | 0xFB02 => ['F', 'L']
  | 0xFB03 => ['F', 'F', 'I']
  | 0xFB04 => ['F', 'F', 'L']
  | 0xFB05 => ['S', 'T']
  | 0xFB06 => ['S', 'T']
  | _ => [c.toUpper]

/-- `s.upper()`, likewise. -/
def upper (s : List Char) : List Char := s.flatMap upperChar

/-- The rest of a text in title case, from within a word or from its start. -/
def titleFrom : Bool → List Char → List Char
  | _, [] => []
  | inWord, c :: cs => (if inWord then c.toLower else c.toUpper) :: titleFrom c.isAlpha cs

/-- `s.title()` of an ASCII text. -/
def title (s : List Char) : List Char := titleFrom false s

/-- `s.replace(a, b)` for single characters. -/
def replaceChar (a b : Char) (s : List Char) : List Char := s.map fun c => if c = a then b else c

/-- The text before the first `c` and the text behind it. -/
def splitAt? (c : Char) : List Char → Option (List Char × List Char)
  | [] => none
  | d :: ds => if d = c then some ([], ds) else (splitAt? c ds).map fun r => (d :: r.1, r.2)

/-- A text that is cut at a separator is put together from the parts. -/
theorem eq_append_of_splitAt? {c : Char} {s x y : List Char} (h : splitAt? c s = some (x, y)) :
    s = x ++ c :: y := by
  induction s generalizing x with
  | nil => cases h
  | cons d ds ih =>
    unfold splitAt? at h
    split_ifs at h with hd
    · cases h
      rw [hd, List.nil_append]
    · obtain ⟨⟨x', y'⟩, hrest, heq⟩ := Option.map_eq_some_iff.1 h
      cases heq
      rw [ih hrest, List.cons_append]

/-- A text with a separator in it is cut at the first one. -/
theorem splitAt?_append {c : Char} {x : List Char} (hx : c ∉ x) (y : List Char) :
    splitAt? c (x ++ c :: y) = some (x, y) := by
  induction x with
  | nil => simp [splitAt?]
  | cons d x ih =>
    have hd : d ≠ c := fun h => hx (by simp [h])
    have hrest : c ∉ x := fun h => hx (List.mem_cons_of_mem _ h)
    rw [List.cons_append, splitAt?, if_neg hd, ih hrest]
    rfl

/-- A text has one part more than separators. -/
theorem length_splitOn (c : Char) (s : List Char) : (s.splitOn c).length = s.count c + 1 := by
  induction s with
  | nil => rfl
  | cons d s ih =>
    rw [List.splitOn_cons_eq_if_modifyHead]
    by_cases hd : d = c
    · rw [if_pos (by simp [hd]), List.length_cons, ih, hd, List.count_cons_self]
    · rw [if_neg (by simp [hd]), List.length_modifyHead, ih, List.count_cons_of_ne (by simp [hd])]

/-- A text without the separator that is found in two joined texts is found in one of them. -/
theorem contains_of_append_cons {c : Char} {t x y : List Char} (hc : c ∉ t)
    (h : Contains t (x ++ c :: y)) : Contains t x ∨ Contains t y := by
  have hfront : ∀ {x : List Char}, t <+: x ++ c :: y → t <+: x := by
    intro x hp
    rcases le_or_gt t.length x.length with hle | hlt
    · exact List.prefix_of_prefix_length_le hp (List.prefix_append _ _) hle
    · have hsep : x ++ [c] <+: t := by
        refine List.prefix_of_prefix_length_le ?_ hp (by simpa using hlt)
        exact ⟨y, by simp⟩
      exact absurd (hsep.subset (by simp)) hc
  induction x with
  | nil =>
    rcases List.infix_cons_iff.1 h with hp | hy
    · exact .inl (hfront hp).isInfix
    · exact .inr hy
  | cons d x ih =>
    rcases List.infix_cons_iff.1 h with hp | hrest
    · exact .inl (hfront hp).isInfix
    · exact (ih hrest).imp_left List.infix_cons

/-! ## Trimming -/

section Trimming

variable {p : Char → Bool} {cs x y : List Char}

/-- Stripping leaves a text alone that holds kept characters only. -/
theorem strip_eq_self (h : ∀ c ∈ cs, p c = false) : strip p cs = cs := by
  have hd : cs.dropWhile p = cs := by
    cases cs with
    | nil => rfl
    | cons c t => rw [List.dropWhile_cons_of_neg (by simp [h c (by simp)])]
  unfold strip
  rw [hd, List.rdropWhile_eq_self_iff]
  intro hne
  simp [h _ (List.getLast_mem hne)]

theorem strip_isInfix : strip p cs <:+: cs := by
  have hback : strip p cs <+: cs.dropWhile p := List.rdropWhile_prefix p _
  exact hback.isInfix.trans (List.dropWhile_suffix p).isInfix

/-- Trimming in front stops at a kept character. -/
theorem kept_of_head?_strip {c : Char} (h : c ∈ (strip p cs).head?) : p c = false := by
  obtain ⟨tail, htail⟩ := List.rdropWhile_prefix p (cs.dropWhile p)
  have hfirst := List.head?_dropWhile_not p cs
  cases hs : strip p cs with
  | nil =>
    rw [hs] at h
    cases h
  | cons d rest =>
    rw [hs, List.head?_cons, Option.mem_some_iff] at h
    rw [← htail, show (cs.dropWhile p).rdropWhile p = d :: rest from hs, h] at hfirst
    simpa using hfirst

/-- Trimming behind stops at a kept character. -/
theorem kept_of_getLast?_strip {c : Char} (h : c ∈ (strip p cs).getLast?) : p c = false := by
  obtain ⟨hne, rfl⟩ := List.mem_getLast?_eq_getLast h
  exact Bool.eq_false_iff.2 (List.rdropWhile_last_not p (cs.dropWhile p) hne)

/-- Trimming takes nothing away that a filter would keep. -/
theorem filter_strip {q : Char → Bool} (h : ∀ c ∈ cs, p c = true → q c = false) :
    (strip p cs).filter q = cs.filter q := by
  have hdrop : ∀ ds : List Char, (∀ c ∈ ds, p c = true → q c = false) →
      (ds.dropWhile p).filter q = ds.filter q := by
    intro ds hds
    induction ds with
    | nil => rfl
    | cons c ds ih =>
      have hrest : ∀ d ∈ ds, p d = true → q d = false := fun d hd => hds d (List.mem_cons_of_mem c hd)
      by_cases hc : p c = true
      · rw [List.dropWhile_cons_of_pos hc, ih hrest,
          List.filter_cons_of_neg (by simp [hds c List.mem_cons_self hc])]
      · rw [List.dropWhile_cons_of_neg hc]
  have hback : ∀ c ∈ (cs.dropWhile p).reverse, p c = true → q c = false := fun c hc =>
    h c ((List.dropWhile_sublist p).subset (List.mem_reverse.1 hc))
  unfold strip List.rdropWhile
  rw [List.filter_reverse, hdrop _ hback, ← List.filter_reverse, List.reverse_reverse, hdrop _ h]

/-- A text with a kept character is trimmed in front for itself. -/
theorem dropWhile_append_of_mem (hx : ∃ c ∈ x, p c = false) :
    (x ++ y).dropWhile p = x.dropWhile p ++ y := by
  rw [List.dropWhile_append, if_neg]
  simp only [List.isEmpty_iff, List.dropWhile_eq_nil_iff]
  intro hall
  obtain ⟨c, hc, hkept⟩ := hx
  rw [hall c hc] at hkept
  cases hkept

/-- A text with a kept character is trimmed behind for itself. -/
theorem rdropWhile_append_of_mem (hy : ∃ c ∈ y, p c = false) :
    (x ++ y).rdropWhile p = x ++ y.rdropWhile p := by
  have hrev : ∃ c ∈ y.reverse, p c = false := by simpa using hy
  unfold List.rdropWhile
  rw [List.reverse_append, dropWhile_append_of_mem hrev, List.reverse_append,
    List.reverse_reverse]

/-- A text extended at its end is trimmed at each end for itself. -/
theorem strip_append (hx : ∃ c ∈ x, p c = false) (hy : ∃ c ∈ y, p c = false) :
    strip p (x ++ y) = x.dropWhile p ++ y.rdropWhile p := by
  unfold strip
  rw [dropWhile_append_of_mem hx, rdropWhile_append_of_mem hy]

/-- A text that ends with a kept character is trimmed in front only. -/
theorem strip_of_getLast (h : ∀ c ∈ cs.getLast?, p c = false) :
    strip p cs = cs.dropWhile p := by
  unfold strip
  rw [List.rdropWhile_eq_self_iff]
  intro hne
  have hcs : cs ≠ [] := by
    rintro rfl
    exact hne rfl
  have hlast : (cs.dropWhile p).getLast hne = cs.getLast hcs :=
    (List.dropWhile_suffix p).getLast hne
  rw [hlast]
  simp [h _ (List.getLast_mem_getLast? hcs)]

/-- A text between kept characters is not trimmed. -/
theorem strip_of_ends (hhead : ∀ c ∈ cs.head?, p c = false)
    (hlast : ∀ c ∈ cs.getLast?, p c = false) : strip p cs = cs := by
  rw [strip_of_getLast hlast]
  cases cs with
  | nil => rfl
  | cons c rest => exact List.dropWhile_cons_of_neg (by simp [hhead c rfl])

/-- What is stripped once is stripped. -/
theorem strip_strip : strip p (strip p cs) = strip p cs :=
  strip_of_ends (fun _ => kept_of_head?_strip) fun _ => kept_of_getLast?_strip

end Trimming

/-! ## Looking for a marker -/

section Markers

variable {p : Char → Bool} {t s x y frag : List Char} {m c : Char}

theorem contains_of_afterFirst (h : afterFirst t s = some frag) : Contains t s := by
  induction s with
  | nil =>
    unfold afterFirst at h
    split_ifs at h with ht
    rw [ht]
    exact List.nil_infix
  | cons c s ih =>
    unfold afterFirst at h
    split_ifs at h with ht
    · exact ht.isInfix
    · exact List.infix_cons (ih h)

theorem afterFirst_self (t s : List Char) : afterFirst t (t ++ s) = some s := by
  cases h : t ++ s with
  | nil =>
    obtain ⟨rfl, rfl⟩ := List.append_eq_nil_iff.1 h
    rfl
  | cons c r =>
    unfold afterFirst
    rw [← h, if_pos (List.prefix_append t s), List.drop_left]

/-- A character that does not start the marker is skipped. -/
theorem afterFirst_cons_of_ne (h : c ≠ m) :
    afterFirst (m :: t) (c :: s) = afterFirst (m :: t) s := by
  rw [afterFirst, if_neg]
  rw [List.cons_prefix_cons]
  exact fun hp => h hp.1.symm

/-- The first marker of a text is the first of a longer one. -/
theorem afterFirst_append (h : afterFirst (m :: t) x = some frag) :
    afterFirst (m :: t) (x ++ y) = some (frag ++ y) := by
  induction x with
  | nil =>
    rw [afterFirst, if_neg (by simp)] at h
    cases h
  | cons c x ih =>
    rw [List.cons_append]
    by_cases hp : m :: t <+: c :: x
    · rw [afterFirst, if_pos hp] at h
      have hp' : m :: t <+: c :: (x ++ y) := hp.trans (List.prefix_append (c :: x) y)
      rw [afterFirst, if_pos hp', ← List.cons_append, List.drop_append_of_le_length hp.length_le,
        Option.some.inj h]
    · rw [afterFirst, if_neg hp] at h
      -- the marker lies further on, so it is no longer than the rest
      have hlen : (m :: t).length ≤ x.length := (contains_of_afterFirst h).length_le
      have hp' : ¬ m :: t <+: c :: (x ++ y) := by
        intro hp'
        refine hp ?_
        rw [← List.cons_append] at hp'
        refine List.prefix_of_prefix_length_le hp' (List.prefix_append (c :: x) y) ?_
        exact hlen.trans (Nat.le_succ _)
      rw [afterFirst, if_neg hp', ih h]

/-- Trimming in front does not touch a marker that starts with a kept character. -/
theorem afterFirst_dropWhile (hm : p m = false) :
    afterFirst (m :: t) (s.dropWhile p) = afterFirst (m :: t) s := by
  induction s with
  | nil => rfl
  | cons c s ih =>
    cases hc : p c with
    | true =>
      have hne : c ≠ m := by
        rintro rfl
        rw [hc] at hm
        cases hm
      rw [List.dropWhile_cons_of_pos hc, ih, afterFirst_cons_of_ne hne]
    | false => rw [List.dropWhile_cons_of_neg (by simp [hc])]

/-- A text without the marker is skipped up to a character that the marker does not hold. -/
theorem afterFirst_skip (hx : ¬ Contains (m :: t) x) (hc : c ∉ m :: t) :
    afterFirst (m :: t) (x ++ c :: y) = afterFirst (m :: t) y := by
  induction x with
  | nil => exact afterFirst_cons_of_ne fun h => hc (by simp [h])
  | cons d x ih =>
    have hx' : ¬ Contains (m :: t) x := fun h => hx (List.infix_cons h)
    have hp : ¬ m :: t <+: d :: x ++ c :: y := by
      intro hp
      rcases Nat.lt_or_ge (d :: x).length (m :: t).length with hlen | hlen
      · -- the marker would reach past the character
        obtain ⟨z, hz⟩ := hp
        have hmem : c ∈ (m :: t).drop (d :: x).length := by
          have hdrop := congrArg (List.drop (d :: x).length) hz
          rw [List.drop_left, List.drop_append_of_le_length hlen.le] at hdrop
          cases hd : (m :: t).drop (d :: x).length with
          | nil => exact absurd (List.drop_eq_nil_iff.1 hd) (not_le.2 hlen)
          | cons e r =>
            rw [hd, List.cons_append, List.cons.injEq] at hdrop
            rw [hdrop.1]
            exact List.mem_cons_self
        exact hc (List.mem_of_mem_drop hmem)
      · exact hx (List.prefix_of_prefix_length_le hp (List.prefix_append _ _) hlen).isInfix
    rw [List.cons_append] at hp ⊢
    rw [afterFirst, if_neg hp, ih hx']

/-- The first marker stays the first when the text is extended at its end and trimmed. -/
theorem afterFirst_strip_append (hm : p m = false) (hy : ∃ c ∈ y, p c = false)
    (h : afterFirst (m :: t) x = some frag) :
    afterFirst (m :: t) (strip p (x ++ y)) = some (frag ++ y.rdropWhile p) := by
  have hx : ∃ c ∈ x, p c = false :=
    ⟨m, (contains_of_afterFirst h).subset List.mem_cons_self, hm⟩
  rw [strip_append hx hy]
  refine afterFirst_append ?_
  rw [afterFirst_dropWhile hm, h]

theorem Contains.dropWhile (hm : p m = false) (h : Contains (m :: t) s) :
    Contains (m :: t) (s.dropWhile p) := by
  induction s with
  | nil => exact h
  | cons c s ih =>
    cases hc : p c with
    | false =>
      rw [List.dropWhile_cons_of_neg (by simp [hc])]
      exact h
    | true =>
      rw [List.dropWhile_cons_of_pos hc]
      rcases List.infix_cons_iff.1 h with hp | hs
      · rw [List.cons_prefix_cons] at hp
        rw [hp.1, hc] at hm
        cases hm
      · exact ih hs

/-- A marker is still there when the text is extended at its end and trimmed. -/
theorem contains_strip_append (hm : p m = false) (hy : ∃ c ∈ y, p c = false)
    (h : Contains (m :: t) x) : Contains (m :: t) (strip p (x ++ y)) := by
  rw [strip_append ⟨m, h.subset List.mem_cons_self, hm⟩ hy]
  exact (h.dropWhile hm).trans (List.prefix_append _ _).isInfix

theorem removeFrom_of_not_contains (h : ¬ Contains t s) : removeFrom t 0 s = s := by
  induction s with
  | nil => rfl
  | cons c s ih =>
    have hp : ¬ (t ≠ [] ∧ t <+: c :: s) := fun hp => h hp.2.isInfix
    rw [removeFrom, if_neg hp, ih fun hs => h (List.infix_cons hs)]

theorem removeAll_of_not_contains (h : ¬ Contains t s) : removeAll t s = s :=
  removeFrom_of_not_contains h

/-- The first word of a text that starts with one. -/
theorem firstWord_append {space : Char → Bool} {w : List Char} (hw : w ≠ [])
    (hkept : ∀ c ∈ w, space c = false) (hs : ∀ c ∈ s.head?, space c = true) :
    firstWord space (w ++ s) = some w := by
  have hdrop : (w ++ s).dropWhile space = w ++ s := by
    cases w with
    | nil => exact absurd rfl hw
    | cons c w => rw [List.cons_append, List.dropWhile_cons_of_neg (by simp [hkept c])]
  have htake : (w ++ s).takeWhile (fun c => !space c) = w := by
    rw [List.takeWhile_append_of_pos (by simpa using hkept)]
    cases s with
    | nil => simp
    | cons c s =>
      have hc : space c = true := hs c (by simp)
      rw [List.takeWhile_cons_of_neg (by simp [hc]), List.append_nil]
  unfold firstWord
  rw [hdrop, htake]
  cases w with
  | nil => exact absurd rfl hw
  | cons c w => rfl

end Markers

end Text

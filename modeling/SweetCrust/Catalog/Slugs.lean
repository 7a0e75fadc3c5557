import SweetCrust.Catalog.Categories

/-!
# Slugs

`slugify`, and the numbers that make the slug of a product unique.  The cut at 200 characters comes
last, after the hyphens at the ends are gone; where it falls behind a hyphen, that hyphen stays.

* `WellFormed` — no more than 200 characters, and hyphens only one by one between others.
* `Settled` — what `str.lower` leaves alone.
* `chars_hyphenated` — what the text is like before the cut.
* `slugify_eq_self` — a slug that is well formed is its own slug.
* `slugsFine_iff` — a slug is well formed, and its own slug, exactly if the 200th character before
  the cut is not a hyphen.  The loops find a slug that is free in any case.
-/

namespace SweetCrust

open Text Decimal FirstFree Categories

namespace Slugs

variable (cs : Charset)

/-! ## The functions -/

/-- What `slugify` leaves of a text before it joins and cuts. -/
def kept (value : String) : List Char :=
  (strip isSpace (cs.lower value.toList)).filter fun c => cs.word c || isSpace c || c = '-'

/-- What `slugify` cuts at 200 characters. -/
def hyphenated (value : String) : List Char :=
  strip (fun c => c = '-') (joinGaps false (kept cs value))

theorem slugify_eq (value : String) :
    slugify cs value = String.ofList ((hyphenated cs value).take 200) := rfl

/-- The slug that the loop for a product starts from. -/
def productBase (name : String) : String := (truthy (some (slugify cs name))).getD "product"

/-- The loop of `create_product` for the slug, for as many rounds as are given. -/
def createProductSlug (existing : Finset String) (name : String) (rounds : ℕ) : Option String :=
  firstFree (candidate (productBase cs name)) (fun slug => slug ∈ existing) rounds 0

/-- The loop of `create_my_product`. -/
def createMyProductSlug (existing : Finset String) (name : Option String) (rounds : ℕ) :
    Option String :=
  createProductSlug cs existing (stripped (name.getD "")) rounds

/-! ## What is expected of them -/

/-- Two characters that are not both hyphens. -/
def Parted (a b : Char) : Prop := ¬ (a = '-' ∧ b = '-')

structure WellFormed (slug : String) : Prop where
  short : slug.length ≤ 200
  leading : slug.toList.head? ≠ some '-'
  trailing : slug.toList.getLast? ≠ some '-'
  doubled : ¬ Contains ['-', '-'] slug.toList

/-- The loop ends, with a slug that none has. -/
def FindsFree (loop : ℕ → Option String) (existing : Finset String) : Prop :=
  ∃ slug ∉ existing, ∃ enough, ∀ rounds, enough ≤ rounds → loop rounds = some slug

structure SlugsFine (s : String) : Prop where
  wellFormed : WellFormed (slugify cs s)
  idempotent : slugify cs (slugify cs s) = slugify cs s
  product : ∀ existing, FindsFree (createProductSlug cs existing s) existing
  myProduct : ∀ existing, FindsFree (createMyProductSlug cs existing (some s)) existing

/-- A text of hyphens and of characters that have been through `lower` is in lower case. -/
def Settled : Prop :=
  ∀ value text : List Char, (∀ c ∈ text, c = '-' ∨ c ∈ cs.lower value) → cs.lower text = text

/-! ## Joining -/

section Joining

variable {l : List Char} {c : Char} {b : Bool}

theorem isGap_hyphen : isGap '-' = true := by decide

/-- Only hyphens are put in, and no gaps stay. -/
theorem mem_joinGaps (h : c ∈ joinGaps b l) : c = '-' ∨ c ∈ l ∧ isGap c = false := by
  induction l generalizing b with
  | nil => cases h
  | cons d rest ih =>
    have hrest : ∀ {b}, c ∈ joinGaps b rest → c = '-' ∨ c ∈ d :: rest ∧ isGap c = false :=
      fun h => (ih h).imp_right fun hmem => ⟨List.mem_cons_of_mem d hmem.1, hmem.2⟩
    unfold joinGaps at h
    by_cases hd : isGap d = true
    · rw [if_pos hd] at h
      cases b with
      | true => exact hrest h
      | false =>
        rcases List.mem_cons.1 h with rfl | h
        · exact Or.inl rfl
        · exact hrest h
    · rw [if_neg hd] at h
      rcases List.mem_cons.1 h with rfl | h
      · exact Or.inr ⟨List.mem_cons_self, by simpa using hd⟩
      · exact hrest h

/-- Within a run of gaps, what comes next is no hyphen. -/
theorem head?_joinGaps : (joinGaps true l).head? ≠ some '-' := by
  induction l with
  | nil => simp [joinGaps]
  | cons d rest ih =>
    unfold joinGaps
    by_cases hd : isGap d = true
    · rw [if_pos hd]
      exact ih
    · rw [if_neg hd, List.head?_cons]
      rintro ⟨⟩
      exact hd isGap_hyphen

/-- No two hyphens stand side by side. -/
theorem isChain_joinGaps (b : Bool) (l : List Char) : (joinGaps b l).IsChain Parted := by
  induction l generalizing b with
  | nil => exact List.IsChain.nil
  | cons d rest ih =>
    unfold joinGaps
    by_cases hd : isGap d = true
    · rw [if_pos hd]
      cases b with
      | true => exact ih true
      | false =>
        refine List.isChain_cons.2 ⟨fun c hc hboth => ?_, ih true⟩
        exact head?_joinGaps (by rw [Option.mem_def.1 hc, hboth.2])
    · rw [if_neg hd]
      refine List.isChain_cons.2 ⟨fun c _ hboth => hd ?_, ih false⟩
      rw [hboth.1]
      exact isGap_hyphen

/-- Nothing is joined where single hyphens are the only gaps. -/
theorem joinGaps_eq_self (hgap : ∀ c ∈ l, isGap c = true → c = '-') (h : l.IsChain Parted) :
    joinGaps false l = l ∧ (l.head? ≠ some '-' → joinGaps true l = l) := by
  induction l with
  | nil => exact ⟨rfl, fun _ => rfl⟩
  | cons d rest ih =>
    obtain ⟨hfalse, htrue⟩ := ih (fun c hc => hgap c (List.mem_cons_of_mem d hc)) h.tail
    by_cases hd : isGap d = true
    · have hhyphen : d = '-' := hgap d List.mem_cons_self hd
      subst hhyphen
      have hnext : rest.head? ≠ some '-' := by
        intro hhead
        exact (List.isChain_cons.1 h).1 '-' hhead ⟨rfl, rfl⟩
      refine ⟨?_, fun hne => absurd rfl hne⟩
      unfold joinGaps
      rw [if_pos hd]
      exact congrArg ('-' :: ·) (htrue hnext)
    · unfold joinGaps
      rw [if_neg hd, if_neg hd, hfalse]
      exact ⟨rfl, fun _ => rfl⟩

end Joining

/-! ## Before and after the cut -/

section Cutting

variable {cs} {s : String} {c : Char} {l : List Char}

theorem isChain_hyphenated (s : String) : (hyphenated cs s).IsChain Parted :=
  List.IsChain.infix (isChain_joinGaps false _) strip_isInfix

/-- A character of a slug is a hyphen, or one that `slugify` keeps and does not join. -/
theorem chars_hyphenated (h : c ∈ hyphenated cs s) :
    c = '-' ∨ c ∈ cs.lower s.toList ∧ (cs.word c || isSpace c || c = '-') = true ∧
      isGap c = false := by
  rcases mem_joinGaps (strip_isInfix.subset h) with rfl | ⟨hmem, hgap⟩
  · exact Or.inl rfl
  · obtain ⟨hmem, hkept⟩ := List.mem_filter.1 hmem
    exact Or.inr ⟨strip_isInfix.subset hmem, hkept, hgap⟩

theorem toList_slugify (s : String) : (slugify cs s).toList = (hyphenated cs s).take 200 := by
  rw [slugify_eq, String.toList_ofList]

theorem head?_hyphenated : (hyphenated cs s).head? ≠ some '-' := by
  intro h
  have hkept := kept_of_head?_strip h
  simp at hkept

/-- The last character is the 200th, or the last of all. -/
theorem getLast?_slugify :
    (slugify cs s).toList.getLast? = some '-' ↔ (hyphenated cs s)[199]? = some '-' := by
  rw [toList_slugify, List.getLast?_eq_getElem?, List.length_take]
  by_cases hlong : 200 ≤ (hyphenated cs s).length
  · rw [min_eq_left hlong, List.getElem?_take_of_lt (by omega)]
  · have hlast : (hyphenated cs s).getLast? ≠ some '-' := by
      intro h
      have hkept := kept_of_getLast?_strip h
      simp at hkept
    rw [List.getLast?_eq_getElem?] at hlast
    have hnone : (hyphenated cs s)[199]? = none := List.getElem?_eq_none (by omega)
    rw [min_eq_right (by omega), List.take_of_length_le (by omega), hnone]
    exact iff_of_false hlast (by simp)

/-- All but the end of a slug is well formed in any case. -/
theorem wellFormed_iff : WellFormed (slugify cs s) ↔ (hyphenated cs s)[199]? ≠ some '-' := by
  constructor
  · intro h hcut
    exact h.trailing (getLast?_slugify.2 hcut)
  · intro hcut
    refine ⟨?_, ?_, fun h => hcut (getLast?_slugify.1 h), fun h => ?_⟩
    · rw [← String.length_toList, toList_slugify]
      exact List.length_take_le _ _
    · rw [toList_slugify, List.head?_take, if_neg (by omega)]
      exact head?_hyphenated
    · rw [toList_slugify] at h
      have hcut : (hyphenated cs s).take 200 <+: hyphenated cs s := List.take_prefix 200 _
      have hpair := List.IsChain.infix (isChain_hyphenated s) (h.trans hcut.isInfix)
      exact (List.isChain_pair.1 hpair) ⟨rfl, rfl⟩

/-- A slug that is well formed is its own slug. -/
theorem slugify_eq_self (hlower : Settled cs) (h : WellFormed (slugify cs s)) :
    slugify cs (slugify cs s) = slugify cs s := by
  have hchars : ∀ c ∈ (slugify cs s).toList, c = '-' ∨ c ∈ cs.lower s.toList ∧
      (cs.word c || isSpace c || c = '-') = true ∧ isGap c = false := by
    intro c hc
    rw [toList_slugify] at hc
    exact chars_hyphenated (List.mem_of_mem_take hc)
  have hcase : cs.lower (slugify cs s).toList = (slugify cs s).toList :=
    hlower s.toList _ fun c hc => (hchars c hc).imp_right And.left
  have hspace : ∀ c ∈ (slugify cs s).toList, isSpace c = false := by
    intro c hc
    rcases hchars c hc with rfl | ⟨-, -, hgap⟩
    · decide
    · simp only [isGap, Bool.or_eq_false_iff] at hgap
      exact hgap.1.1
  have hkept : kept cs (slugify cs s) = (slugify cs s).toList := by
    unfold kept
    rw [hcase, strip_eq_self hspace, List.filter_eq_self]
    intro c hc
    rcases hchars c hc with rfl | ⟨-, hkept, -⟩
    · simp
    · exact hkept
  have hgap : ∀ c ∈ (slugify cs s).toList, isGap c = true → c = '-' := by
    intro c hc hc'
    rcases hchars c hc with rfl | ⟨-, -, hgap⟩
    · rfl
    · rw [hgap] at hc'
      cases hc'
  have hchain : (slugify cs s).toList.IsChain Parted := by
    rw [toList_slugify]
    exact (isChain_hyphenated s).take 200
  have hends : strip (fun c => c = '-') (slugify cs s).toList = (slugify cs s).toList := by
    refine strip_of_ends (fun c hc => ?_) fun c hc => ?_
    · refine decide_eq_false ?_
      rintro rfl
      exact h.leading hc
    · refine decide_eq_false ?_
      rintro rfl
      exact h.trailing hc
  have hshort : (slugify cs s).toList.length ≤ 200 := by
    rw [String.length_toList]
    exact h.short
  rw [slugify_eq, hyphenated, hkept, (joinGaps_eq_self hgap hchain).1, hends,
    List.take_of_length_le hshort, String.ofList_toList]

end Cutting

/-! ## The loops -/

section Loops

variable {cs} {s : String}

/-- One round more than there are slugs is enough. -/
theorem createProductSlug_findsFree (existing : Finset String) (name : String) :
    FindsFree (createProductSlug cs existing name) existing := by
  have hsome : (createProductSlug cs existing name (existing.card + 1)).isSome := by
    unfold createProductSlug
    rw [← Finset.length_toList]
    refine firstFree_isSome (candidate_injective _) (fun slug htaken => ?_) 0
    exact Finset.mem_toList.2 (of_decide_eq_true htaken)
  obtain ⟨slug, hslug⟩ := Option.isSome_iff_exists.1 hsome
  refine ⟨slug, of_decide_eq_false (firstFree_eq_some hslug).1, existing.card + 1, ?_⟩
  exact fun rounds hrounds => firstFree_of_le hrounds hslug

/-- Slugs are well formed and fresh exactly if the cut does not fall behind a hyphen. -/
theorem slugsFine_iff (hlower : Settled cs) (s : String) :
    SlugsFine cs s ↔ (hyphenated cs s)[199]? ≠ some '-' := by
  rw [← wellFormed_iff]
  constructor
  · intro h
    exact h.wellFormed
  · intro h
    exact ⟨h, slugify_eq_self hlower h, fun existing => createProductSlug_findsFree existing s,
      fun existing => createProductSlug_findsFree existing _⟩

end Loops

/-! ## ASCII -/

section Ascii

theorem lowerChar_lowerChar (c : Char) : lowerChar (lowerChar c) = lowerChar c := by
  unfold lowerChar
  by_cases h : c.toNat = 0x212A
  · rw [if_pos h]
    decide
  · rw [if_neg h, Char.toLower_toLower_eq_toLower, if_neg]
    intro hkelvin
    by_cases hupper : c.isUpper = true
    · have hlower : c.toLower.isLower = true := by
        rw [Char.isLower_toLower_eq_isAlpha, Char.isAlpha, hupper, Bool.true_or]
      simp only [Char.isLower, Bool.and_eq_true, decide_eq_true_eq, UInt32.le_iff_toNat_le] at hlower
      have hz : 'z'.val.toNat = 122 := by decide
      have hval : c.toLower.val.toNat = 0x212A := hkelvin
      omega
    · rw [Char.toLower_eq_of_not_isUpper hupper] at hkelvin
      exact h hkelvin

theorem settled_ascii : Settled ascii := by
  intro value text h
  show text.map lowerChar = text
  refine (List.map_congr_left fun c hc => ?_).trans (List.map_id _)
  rcases h c hc with rfl | hmem
  · decide
  · obtain ⟨d, -, rfl⟩ := List.mem_map.1 hmem
    exact lowerChar_lowerChar d

theorem redVelvet_fine : SlugsFine ascii "  Red_Velvet -- Cake! " :=
  (slugsFine_iff settled_ascii _).2 (by decide)

/-- A name whose 200th character falls on a gap. -/
def longName : String := String.ofList (List.replicate 199 'a' ++ [' ', 'b'])

/-- The slug of a name may end with a hyphen. -/
theorem longName_cut : ¬ SlugsFine ascii longName := fun h =>
  absurd h.wellFormed.trailing (by decide +kernel)

end Ascii

end Slugs

end SweetCrust

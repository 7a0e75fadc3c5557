import SweetCrust.Shops.Hours

/-!
# What a list of days means

A shop writes its days as a list: days and ranges of days, with commas or slashes between them.
`_day_allowed` reads a lone range, and it reads a list of days.  A range that stands in a list is
no name of a day, and is left out like any other word that is not known; and a list of which
nothing is left is open every day.

* `DayToken`, `DayList` — the lists, and the days they mean.
* `dayAllowed_iff_listed` — what a list of several tokens is read as.
* `dayAllowed_iff_has_iff` — the lists that are read as they are meant.
-/

namespace SweetCrust

open Text Decimal

namespace ShopHours

/-! ## Lists of days -/

/-- A name from the table. -/
structure DayName where
  name : String
  weekday : ℕ
  known : (name, weekday) ∈ dayAliases

inductive DayToken
  | day (d : DayName)
  | range (first last : DayName)

def DayToken.text : DayToken → List Char
  | .day d => d.name.toList
  | .range first last => first.name.toList ++ '-' :: last.name.toList

/-- The days that a token means: a range goes on from its first day to its last, over the end of
the week if need be. -/
def DayToken.Has (w : ℕ) : DayToken → Prop
  | .day d => w = d.weekday
  | .range first last => (w + 7 - first.weekday) % 7 ≤ (last.weekday + 7 - first.weekday) % 7

instance (w : ℕ) : (t : DayToken) → Decidable (t.Has w)
  | .day _ => inferInstanceAs (Decidable (_ = _))
  | .range _ _ => inferInstanceAs (Decidable (_ ≤ _))

/-- The day that a token names. -/
def DayToken.day? : DayToken → Option ℕ
  | .day d => some d.weekday
  | .range _ _ => none

inductive Separator
  | comma
  | slash
  deriving DecidableEq

def Separator.char : Separator → Char
  | .comma => ','
  | .slash => '/'

/-- A list that is not empty, with a separator in front of each further token. -/
structure DayList where
  first : DayToken
  rest : List (Separator × DayToken)

namespace DayList

variable (l : DayList)

def tokens : List DayToken := l.first :: l.rest.map Prod.snd

def text : List Char := l.first.text ++ l.rest.flatMap fun r => r.1.char :: r.2.text

/-- The days that the list means. -/
def Has (w : ℕ) : Prop := ∃ t ∈ l.tokens, t.Has w

/-- The days that the list names one by one. -/
def named : List ℕ := l.tokens.filterMap DayToken.day?

end DayList

/-- The text in any letter case, with spaces anywhere. -/
def Spells (s : String) (text : List Char) : Prop :=
  (s.toList.filter fun c => c ≠ ' ').map Char.toLower = text

instance (s : String) (text : List Char) : Decidable (Spells s text) :=
  inferInstanceAs (Decidable (_ = _))

/-! ## The characters of a list -/

namespace DayName

variable (d : DayName)

theorem dayAlias_name : dayAlias d.name.toList = some d.weekday := by
  have hall : ∀ d ∈ dayAliases, dayAliases.lookup d.1 = some d.2 := by decide +kernel
  rw [dayAlias, String.ofList_toList]
  exact hall _ d.known

theorem weekday_lt : d.weekday < 7 := dayAlias_lt d.dayAlias_name

theorem name_ne_nil : d.name.toList ≠ [] := by
  have hall : ∀ d ∈ dayAliases, d.1.toList ≠ [] := by decide +kernel
  exact hall _ d.known

theorem isLower {c : Char} (h : c ∈ d.name.toList) : c.isLower = true := by
  have hall : ∀ d ∈ dayAliases, d.1.toList.all Char.isLower = true := by decide +kernel
  exact List.all_eq_true.1 (hall _ d.known) c h

/-- A character that is no small letter is not in a name. -/
theorem not_mem {c : Char} (h : c.isLower = false) : c ∉ d.name.toList := by
  intro hc
  rw [d.isLower hc] at h
  cases h

end DayName

theorem isLower_of_dayAlias {name : List Char} {w : ℕ} (h : dayAlias name = some w) {c : Char}
    (hc : c ∈ name) : c.isLower = true := by
  refine DayName.isLower ⟨_, w, dayAlias_mem h⟩ ?_
  rw [String.toList_ofList]
  exact hc

namespace DayToken

variable (t : DayToken)

theorem text_ne_nil : t.text ≠ [] := by
  cases t with
  | day d => exact d.name_ne_nil
  | range first last => simp [text]

theorem mem_text {c : Char} (h : c ∈ t.text) : c.isLower = true ∨ c = '-' := by
  cases t with
  | day d => exact Or.inl (d.isLower h)
  | range first last =>
    simp only [text, List.mem_append, List.mem_cons] at h
    rcases h with h | rfl | h
    · exact Or.inl (first.isLower h)
    · exact Or.inr rfl
    · exact Or.inl (last.isLower h)

theorem comma_not_mem : ',' ∉ t.text := fun h => absurd (t.mem_text h) (by decide)

theorem slash_not_mem : '/' ∉ t.text := fun h => absurd (t.mem_text h) (by decide)

theorem dayAlias_text : dayAlias t.text = t.day? := by
  cases t with
  | day d => exact d.dayAlias_name
  | range first last =>
    cases h : dayAlias (range first last).text with
    | none => rfl
    | some w =>
      have hdash := isLower_of_dayAlias h (c := '-') (by simp [text])
      exact absurd hdash (by decide)

end DayToken

theorem DayList.mem_text {l : DayList} {c : Char} (h : c ∈ l.text) :
    c.isLower = true ∨ c = '-' ∨ c = ',' ∨ c = '/' := by
  simp only [DayList.text, List.mem_append, List.mem_flatMap, List.mem_cons] at h
  rcases h with h | ⟨⟨sep, t⟩, -, rfl | h⟩
  · exact (l.first.mem_text h).imp_right Or.inl
  · cases sep <;> simp [Separator.char]
  · exact (t.mem_text h).imp_right Or.inl

/-! ## What is read -/

section Read

variable {s : String} {l : DayList} {w : ℕ}

theorem printable_of_mem_text {c : Char} (h : c ∈ l.text) : 33 ≤ c.toNat ∧ c.toNat ≤ 126 := by
  rcases l.mem_text h with hlower | rfl | rfl | rfl
  · simp only [Char.isLower, Bool.and_eq_true, decide_eq_true_eq] at hlower
    obtain ⟨hle : 97 ≤ c.toNat, hle' : c.toNat ≤ 122⟩ := hlower
    omega
  · decide
  · decide
  · decide

/-- A character that is spelled is a printable character of ASCII. -/
theorem printable_of_toLower {c : Char} (h : c.toLower ∈ l.text) :
    33 ≤ c.toNat ∧ c.toNat ≤ 126 := by
  by_cases hupper : c.isUpper = true
  · simp only [Char.isUpper, decide_eq_true_eq] at hupper
    obtain ⟨hle : 65 ≤ c.toNat, hle' : c.toNat ≤ 90⟩ := hupper
    omega
  · rw [Char.toLower_eq_of_not_isUpper hupper] at h
    exact printable_of_mem_text h

/-- The key of a text is the list that it spells. -/
theorem dayKey_strip (h : Spells s l.text) : dayKey (strip isSpace s.toList) = l.text := by
  have hmem : ∀ c ∈ s.toList, c ≠ ' ' → c.toLower ∈ l.text := by
    intro c hc hne
    rw [← h]
    exact List.mem_map_of_mem (List.mem_filter.2 ⟨hc, by simpa using hne⟩)
  have hprintable := fun c hc hne => printable_of_toLower (hmem c hc hne)
  -- the only white space is that of the spaces
  have hstrip : (strip isSpace s.toList).filter (fun c => c ≠ ' ') =
      s.toList.filter fun c => c ≠ ' ' := by
    refine filter_strip fun c hc hspace => ?_
    by_contra hkept
    obtain ⟨hle, hle'⟩ := hprintable c hc (by simpa using hkept)
    rw [isSpace_of_printable hle hle'] at hspace
    cases hspace
  have hlower : ∀ c ∈ s.toList, c ≠ ' ' → lowerChar c = c.toLower := by
    intro c hc hne
    obtain ⟨-, hle⟩ := hprintable c hc hne
    exact if_neg (by omega)
  have hspace : ∀ c ∈ s.toList, (lowerChar c ≠ ' ' ↔ c ≠ ' ') := by
    intro c hc
    by_cases hne : c = ' '
    · rw [hne]
      decide
    · have hlisted := (printable_of_mem_text (hmem c hc hne)).1
      rw [hlower c hc hne]
      refine iff_of_true (fun heq => ?_) hne
      rw [heq] at hlisted
      revert hlisted
      decide
  unfold dayKey lower
  rw [List.filter_map, List.filter_congr (q := fun c => decide (c ≠ ' ')), hstrip, ← h]
  · refine List.map_congr_left fun c hc => ?_
    obtain ⟨hc, hne⟩ := List.mem_filter.1 hc
    exact hlower c hc (by simpa using hne)
  · intro c hc
    have hc : c ∈ s.toList :=
      ((List.dropWhile_sublist isSpace).subset ((List.rdropWhile_prefix isSpace _).subset hc))
    exact decide_eq_decide.2 (hspace c hc)

/-- A key with a separator in it is no range. -/
theorem dayRange_eq_none {key : List Char} (h : ',' ∈ key ∨ '/' ∈ key) : dayRange key = none := by
  unfold dayRange
  split_ifs with hdash
  · have hslash : '/' ∈ key := h.resolve_left hdash.2
    cases hsplit : splitAt? '-' key with
    | none => rfl
    | some ends =>
      rw [eq_append_of_splitAt? hsplit, List.mem_append, List.mem_cons] at hslash
      simp only [Option.bind_eq_bind, Option.bind_some]
      rcases hslash with hfirst | hdash | hlast
      · cases halias : dayAlias ends.1 with
        | none => rfl
        | some first => exact absurd (isLower_of_dayAlias halias hfirst) (by decide)
      · exact absurd hdash (by decide)
      · cases halias : dayAlias ends.2 with
        | none => cases dayAlias ends.1 <;> rfl
        | some last => exact absurd (isLower_of_dayAlias halias hlast) (by decide)
  · rfl

/-- The tokens of a list are read from it one by one. -/
theorem splitOn_text (first : DayToken) (rest : List (Separator × DayToken)) :
    (replaceChar '/' ',' (DayList.text ⟨first, rest⟩)).splitOn ',' =
      (DayList.tokens ⟨first, rest⟩).map DayToken.text := by
  have hplain : ∀ t : DayToken, replaceChar '/' ',' t.text = t.text := by
    intro t
    refine (List.map_congr_left fun c hc => if_neg ?_).trans (List.map_id _)
    rintro rfl
    exact t.slash_not_mem hc
  induction rest generalizing first with
  | nil =>
    simp only [DayList.text, DayList.tokens, List.flatMap_nil, List.append_nil, List.map_nil]
    rw [hplain, List.splitOn_eq_singleton first.comma_not_mem]
    rfl
  | cons r rest ih =>
    have htext : replaceChar '/' ',' (DayList.text ⟨first, r :: rest⟩) =
        first.text ++ ',' :: replaceChar '/' ',' (DayList.text ⟨r.2, rest⟩) := by
      have hsep : (if r.1.char = '/' then ',' else r.1.char) = ',' := by
        cases r.1 <;> rfl
      simp only [DayList.text, List.flatMap_cons, replaceChar, List.map_append, List.map_cons,
        List.cons_append, hsep]
      exact congrArg (· ++ _) (hplain first)
    rw [htext, List.splitOn_append_cons_self, List.splitOn_eq_singleton first.comma_not_mem, ih]
    rfl

theorem listedDays_text (l : DayList) : listedDays l.text = l.named := by
  have hkept : (l.tokens.map DayToken.text).filter (fun t => t ≠ []) =
      l.tokens.map DayToken.text := by
    rw [List.filter_eq_self]
    intro text htext
    obtain ⟨t, -, rfl⟩ := List.mem_map.1 htext
    simpa using t.text_ne_nil
  unfold listedDays
  rw [splitOn_text l.first l.rest, hkept, List.filterMap_map]
  exact List.filterMap_congr fun t _ => t.dayAlias_text

theorem text_ne_nil (l : DayList) : l.text ≠ [] := by
  simp [DayList.text, l.first.text_ne_nil]

/-- What is read of a list is read of its text. -/
theorem dayAllowed_iff_keyAllowed (h : Spells s l.text) :
    DayAllowed (some s) w ↔ KeyAllowed l.text w := by
  have hkey := dayKey_strip h
  have hne : strip isSpace s.toList ≠ [] := by
    intro hnil
    rw [hnil] at hkey
    exact text_ne_nil l hkey.symm
  simp only [DayAllowed, Option.getD_some]
  rw [if_neg hne, hkey]

/-- A list of several tokens is read as the days that it names one by one, and as every day if it
names none. -/
theorem dayAllowed_iff_named (h : Spells s l.text) (hrest : l.rest ≠ []) :
    DayAllowed (some s) w ↔ l.named = [] ∨ w ∈ l.named := by
  have hsep : ',' ∈ l.text ∨ '/' ∈ l.text := by
    obtain ⟨r, rest, heq⟩ := List.exists_cons_of_ne_nil hrest
    simp only [DayList.text, heq, List.flatMap_cons, List.mem_append, List.mem_cons]
    cases r.1 with
    | comma => exact Or.inl (Or.inr (Or.inl (Or.inl rfl)))
    | slash => exact Or.inr (Or.inr (Or.inl (Or.inl rfl)))
  have hevery : String.ofList l.text ∉ everyDay := by
    have hall : ∀ t ∈ everyDay, ',' ∉ t.toList ∧ '/' ∉ t.toList := by decide +kernel
    intro hmem
    have hnone := hall _ hmem
    rw [String.toList_ofList] at hnone
    exact hsep.elim hnone.1 hnone.2
  rw [dayAllowed_iff_keyAllowed h, KeyAllowed, if_neg hevery, dayRange_eq_none hsep,
    listedDays_text]

/-- The days of a range, counted from its first. -/
theorem inRange_iff {first last w : ℕ} (hfirst : first < 7) (hlast : last < 7) (hw : w < 7) :
    InRange (first, last) w ↔ (w + 7 - first) % 7 ≤ (last + 7 - first) % 7 := by
  unfold InRange
  split_ifs with hle
  · simp only at hle ⊢
    omega
  · simp only at hle ⊢
    omega

theorem keyAllowed_day (d : DayName) : KeyAllowed d.name.toList w ↔ w = d.weekday := by
  have hevery : String.ofList d.name.toList ∉ everyDay := by
    have hall : ∀ d ∈ dayAliases, d.1 ∉ everyDay := by decide +kernel
    rw [String.ofList_toList]
    exact hall _ d.known
  have hrange : dayRange d.name.toList = none := by
    unfold dayRange
    rw [if_neg fun h => d.not_mem (by decide) h.1]
  have hlisted : listedDays d.name.toList = [d.weekday] := by
    have h := listedDays_text ⟨.day d, []⟩
    simpa [DayList.text, DayList.named, DayList.tokens, DayToken.text, DayToken.day?] using h
  rw [KeyAllowed, if_neg hevery, hrange, hlisted]
  simp

theorem keyAllowed_range (first last : DayName) (hw : w < 7) :
    KeyAllowed (DayToken.range first last).text w ↔ (DayToken.range first last).Has w := by
  have hrange : dayRange (DayToken.range first last).text = some (first.weekday, last.weekday) := by
    have hdash : '-' ∈ (DayToken.range first last).text := by simp [DayToken.text]
    have hcomma : ',' ∉ (DayToken.range first last).text := DayToken.comma_not_mem _
    unfold dayRange
    rw [if_pos ⟨hdash, hcomma⟩, DayToken.text, splitAt?_append (first.not_mem (by decide))]
    simp only [Option.bind_eq_bind, Option.bind_some, first.dayAlias_name, last.dayAlias_name]
    rfl
  have hread := inRange_iff first.weekday_lt last.weekday_lt hw
  unfold KeyAllowed
  split_ifs with hevery
  · -- the whole week
    have hall : ∀ a ∈ dayAliases, ∀ b ∈ dayAliases,
        String.ofList (a.1.toList ++ '-' :: b.1.toList) ∈ everyDay → a.2 = 0 ∧ b.2 = 6 := by
      decide +kernel
    obtain ⟨hmon, hsun⟩ := hall _ first.known _ last.known hevery
    simp only at hmon hsun
    simp only [DayToken.Has, hmon, hsun, true_iff]
    omega
  · rw [hrange]
    exact hread

/-- A lone token is read as it is meant. -/
theorem dayAllowed_iff_of_single (h : Spells s l.text) (hrest : l.rest = []) (hw : w < 7) :
    DayAllowed (some s) w ↔ l.Has w := by
  have htext : l.text = l.first.text := by simp [DayList.text, hrest]
  have hhas : l.Has w ↔ l.first.Has w := by simp [DayList.Has, DayList.tokens, hrest]
  rw [dayAllowed_iff_keyAllowed h, htext, hhas]
  cases l.first with
  | day d => exact keyAllowed_day d
  | range first last => exact keyAllowed_range first last hw

/-- A list means the days that it names and those of its ranges. -/
theorem has_iff : l.Has w ↔ w ∈ l.named ∨ ∃ first last, .range first last ∈ l.tokens ∧
    (DayToken.range first last).Has w := by
  unfold DayList.Has DayList.named
  constructor
  · rintro ⟨t, ht, hw⟩
    cases t with
    | day d => exact Or.inl (List.mem_filterMap.2 ⟨_, ht, congrArg some hw.symm⟩)
    | range first last => exact Or.inr ⟨first, last, ht, hw⟩
  · rintro (hw | ⟨first, last, ht, hw⟩)
    · obtain ⟨t, ht, hday⟩ := List.mem_filterMap.1 hw
      cases t with
      | day d => exact ⟨_, ht, (Option.some.inj hday).symm⟩
      | range first last => cases hday
    · exact ⟨_, ht, hw⟩

end Read

/-! ## Lists that are read as they are meant -/

/-- A lone token; or a list that names each day of its ranges also by itself; or a list of ranges
alone, which cover the week. -/
def DayList.Plain (l : DayList) : Prop :=
  l.rest = [] ∨
    if l.named = [] then ∀ w < 7, l.Has w
    else ∀ first last, .range first last ∈ l.tokens →
      ∀ w < 7, (DayToken.range first last).Has w → w ∈ l.named

/-- A list of days is read as the union of its tokens exactly if it is a lone token, or names each
day of its ranges also by itself, or is of ranges alone, which cover the week. -/
theorem dayAllowed_iff_has_iff {s : String} {l : DayList} (h : Spells s l.text) :
    (∀ w < 7, DayAllowed (some s) w ↔ l.Has w) ↔ l.Plain := by
  unfold DayList.Plain
  by_cases hrest : l.rest = []
  · simp only [hrest, true_or, iff_true]
    exact fun w hw => dayAllowed_iff_of_single h hrest hw
  simp only [hrest, false_or, dayAllowed_iff_named h hrest]
  split_ifs with hnamed
  · simp only [hnamed, true_or, true_iff]
  · simp only [hnamed, false_or]
    constructor
    · intro hall first last ht w hw hhas
      exact (hall w hw).2 ⟨_, ht, hhas⟩
    · intro hall w hw
      rw [has_iff]
      refine ⟨Or.inl, fun hw' => ?_⟩
      rcases hw' with hw' | ⟨first, last, ht, hhas⟩
      · exact hw'
      · exact hall first last ht w hw hhas

def mon : DayName := ⟨"mon", 0, by decide⟩

def tuesday : DayName := ⟨"tuesday", 1, by decide⟩

def wed : DayName := ⟨"wed", 2, by decide⟩

def fri : DayName := ⟨"fri", 4, by decide⟩

/-- A range whose days are named once more. -/
def monToTuesday : DayList := ⟨.range mon tuesday, [(.comma, .day mon), (.slash, .day tuesday)]⟩

theorem monToTuesday_has :
    DayAllowed (some " Mon - Tuesday, MON / tuesday") 1 ↔ monToTuesday.Has 1 := by
  refine (dayAllowed_iff_has_iff (by decide +kernel)).2 (Or.inr ?_) 1 (by decide)
  have hnamed : monToTuesday.named = [0, 1] := rfl
  rw [hnamed, if_neg (by simp)]
  intro first last ht w hw hhas
  simp only [DayList.tokens, monToTuesday, List.map_cons, List.map_nil, List.mem_cons,
    List.not_mem_nil, or_false, reduceCtorEq] at ht
  obtain ⟨rfl, rfl⟩ := DayToken.range.inj ht
  have hdays : ∀ w < 7, (DayToken.range mon tuesday).Has w → w ∈ [0, 1] := by decide
  exact hdays w hw hhas

/-- Monday to Wednesday, and Friday. -/
def threeDaysAndFriday : DayList := ⟨.range mon wed, [(.comma, .day fri)]⟩

/-- A shop that is open from Monday to Wednesday and on Fridays is read as open on Fridays. -/
theorem threeDays_lost :
    ¬ ∀ (s : String) (l : DayList), Spells s l.text →
      ∀ w < 7, DayAllowed (some s) w ↔ l.Has w := by
  intro h
  have hmonday := (h "Mon-Wed, Fri" threeDaysAndFriday (by decide +kernel) 0 (by decide)).2
    ⟨.range mon wed, List.mem_cons_self, by decide⟩
  revert hmonday
  decide +kernel

end ShopHours

end SweetCrust

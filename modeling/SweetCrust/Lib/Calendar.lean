import Mathlib

/-!
# Dates

The dates of the Gregorian calendar from 1 January of year 1 to 31 December of year 9999, as
`datetime.date` has them, numbered from the first.

* `Date`, `ordinal` — a date, and its number.
* `ordinal_injective` — a number belongs to one date.
* `next?`, `prev?` — the day after and the day before, where there is one.
* `plusDays?`, `minusDays?` — a number of days later or earlier; `ordinal_plusDays?` and
  `ordinal_minusDays?` say where they lead, `plusDays?_isSome_iff` when they exist.
* `weekday`, `weekday_lt` — Monday is 0.
* `monthStart`, `nextMonth?`, `lastMonth?` — the first day of a month, and of the months beside it;
  `month_eq_of_mem` says that the dates between belong to the month.
-/

namespace Calendar

def minYear : ℕ := 1

def maxYear : ℕ := 9999

def IsLeap (year : ℕ) : Prop := year % 4 = 0 ∧ (year % 100 ≠ 0 ∨ year % 400 = 0)

instance (year : ℕ) : Decidable (IsLeap year) := inferInstanceAs (Decidable (_ ∧ _))

def daysInMonth (year month : ℕ) : ℕ :=
  if month = 2 then (if IsLeap year then 29 else 28)
  else if month ∈ [4, 6, 9, 11] then 30
  else 31

/-- The days before 1 January of the year. -/
def daysBeforeYear (year : ℕ) : ℕ :=
  (year - 1) * 365 + (year - 1) / 4 - (year - 1) / 100 + (year - 1) / 400

/-- The days of the year before the first of the month. -/
def daysBeforeMonth (year month : ℕ) : ℕ :=
  ((List.range' 1 (month - 1)).map (daysInMonth year)).sum

/-- A date. -/
@[ext] structure Date where
  year : ℕ
  month : ℕ
  day : ℕ
  year_mem : minYear ≤ year ∧ year ≤ maxYear
  month_mem : 1 ≤ month ∧ month ≤ 12
  day_mem : 1 ≤ day ∧ day ≤ daysInMonth year month
  deriving DecidableEq

namespace Date

/-- The number of the date: 1 January of year 1 is day 1. -/
def ordinal (d : Date) : ℕ := daysBeforeYear d.year + daysBeforeMonth d.year d.month + d.day

instance : LE Date := ⟨fun a b => a.ordinal ≤ b.ordinal⟩

instance : LT Date := ⟨fun a b => a.ordinal < b.ordinal⟩

instance (a b : Date) : Decidable (a ≤ b) := inferInstanceAs (Decidable (a.ordinal ≤ b.ordinal))

instance (a b : Date) : Decidable (a < b) := inferInstanceAs (Decidable (a.ordinal < b.ordinal))

end Date

/-! ## Years and months -/

section Counting

variable {year month : ℕ}

theorem daysInMonth_pos (year month : ℕ) : 28 ≤ daysInMonth year month := by
  unfold daysInMonth
  split_ifs <;> omega

theorem daysBeforeMonth_succ (h : 1 ≤ month) :
    daysBeforeMonth year (month + 1) = daysBeforeMonth year month + daysInMonth year month := by
  unfold daysBeforeMonth
  obtain ⟨m, rfl⟩ := Nat.exists_eq_add_of_le' h
  rw [Nat.add_sub_cancel, Nat.add_sub_cancel, List.range'_concat, List.map_append, List.sum_append]
  simp [Nat.add_comm]

theorem daysBeforeMonth_mono {m m' : ℕ} (h : 1 ≤ m) (hle : m ≤ m') :
    daysBeforeMonth year m ≤ daysBeforeMonth year m' := by
  induction m', hle using Nat.le_induction with
  | base => exact le_rfl
  | succ k hk ih =>
    rw [daysBeforeMonth_succ (h.trans hk)]
    omega

/-- The days of the twelve months make the year. -/
theorem daysBeforeMonth_thirteen (year : ℕ) :
    daysBeforeMonth year 13 = if IsLeap year then 366 else 365 := by
  have hmonths : daysBeforeMonth year 13 = 337 + daysInMonth year 2 := by
    simp [daysBeforeMonth, daysInMonth, List.range'_succ]
    omega
  rw [hmonths, daysInMonth, if_pos rfl]
  by_cases hleap : IsLeap year
  · rw [if_pos hleap, if_pos hleap]
  · rw [if_neg hleap, if_neg hleap]

theorem div_succ (y k : ℕ) : (y + 1) / k = y / k + if (y + 1) % k = 0 then 1 else 0 := by
  rw [Nat.succ_div]
  simp only [Nat.dvd_iff_mod_eq_zero]

theorem daysBeforeYear_succ (h : 1 ≤ year) :
    daysBeforeYear (year + 1) = daysBeforeYear year + daysBeforeMonth year 13 := by
  obtain ⟨y, rfl⟩ := Nat.exists_eq_add_of_le' h
  have hle : y / 100 ≤ y / 4 := Nat.div_le_div_left (by norm_num) (by norm_num)
  have h100 : (y + 1) % 100 = 0 → (y + 1) % 4 = 0 := by omega
  have h400 : (y + 1) % 400 = 0 → (y + 1) % 100 = 0 := by omega
  rw [daysBeforeMonth_thirteen]
  unfold daysBeforeYear IsLeap
  rw [Nat.add_sub_cancel, Nat.add_sub_cancel, div_succ y 4, div_succ y 100, div_succ y 400]
  generalize y / 4 = a at *
  generalize y / 100 = b at *
  generalize y / 400 = c at *
  by_cases hc : (y + 1) % 400 = 0
  · simp only [hc, h400 hc, h100 (h400 hc), ne_eq, not_true_eq_false, or_true, and_self, if_true]
    omega
  · by_cases hb : (y + 1) % 100 = 0
    · simp only [hc, hb, h100 hb, ne_eq, not_true_eq_false, or_self, and_false, if_true, if_false]
      omega
    · by_cases ha : (y + 1) % 4 = 0
      · simp only [hc, hb, ha, ne_eq, not_false_eq_true, true_or, and_self, if_true, if_false]
        omega
      · simp only [hc, hb, ha, false_and, if_false]
        omega

theorem daysBeforeYear_mono {y y' : ℕ} (h : 1 ≤ y) (hle : y ≤ y') :
    daysBeforeYear y ≤ daysBeforeYear y' := by
  induction y', hle using Nat.le_induction with
  | base => exact le_rfl
  | succ k hk ih =>
    rw [daysBeforeYear_succ (h.trans hk)]
    omega

end Counting

/-! ## The numbers of dates -/

section Numbers

variable {d e : Date}

theorem daysBeforeMonth_add_day_le (d : Date) :
    daysBeforeMonth d.year d.month + d.day ≤ daysBeforeMonth d.year (d.month + 1) := by
  rw [daysBeforeMonth_succ d.month_mem.1]
  exact Nat.add_le_add_left d.day_mem.2 _

theorem ordinal_le_year (d : Date) : d.ordinal ≤ daysBeforeYear (d.year + 1) := by
  have hyear := daysBeforeYear_succ d.year_mem.1
  have hmonth := daysBeforeMonth_add_day_le d
  have hmono : daysBeforeMonth d.year (d.month + 1) ≤ daysBeforeMonth d.year 13 :=
    daysBeforeMonth_mono (by omega) (by have := d.month_mem.2; omega)
  unfold Date.ordinal
  omega

theorem ordinal_pos (d : Date) : 0 < d.ordinal := by
  have hday := d.day_mem.1
  unfold Date.ordinal
  omega

theorem ordinal_lt_of_year_lt (h : d.year < e.year) : d.ordinal < e.ordinal := by
  have hle := ordinal_le_year d
  have hmono : daysBeforeYear (d.year + 1) ≤ daysBeforeYear e.year :=
    daysBeforeYear_mono (Nat.succ_pos d.year) h
  have hday := e.day_mem.1
  unfold Date.ordinal at *
  omega

theorem ordinal_lt_of_month_lt (hyear : d.year = e.year) (h : d.month < e.month) :
    d.ordinal < e.ordinal := by
  have hle := daysBeforeMonth_add_day_le d
  have hmono : daysBeforeMonth d.year (d.month + 1) ≤ daysBeforeMonth d.year e.month :=
    daysBeforeMonth_mono (by omega) h
  have hday := e.day_mem.1
  unfold Date.ordinal
  rw [← hyear]
  omega

/-- A number belongs to one date. -/
theorem ordinal_injective : Function.Injective Date.ordinal := by
  intro d e h
  have hyear : d.year = e.year := by
    rcases lt_trichotomy d.year e.year with hlt | heq | hlt
    · exact absurd h (ordinal_lt_of_year_lt hlt).ne
    · exact heq
    · exact absurd h (ordinal_lt_of_year_lt hlt).ne'
  have hmonth : d.month = e.month := by
    rcases lt_trichotomy d.month e.month with hlt | heq | hlt
    · exact absurd h (ordinal_lt_of_month_lt hyear hlt).ne
    · exact heq
    · exact absurd h (ordinal_lt_of_month_lt hyear.symm hlt).ne'
  refine Date.ext hyear hmonth ?_
  unfold Date.ordinal at h
  rw [hyear, hmonth] at h
  omega

end Numbers

/-! ## The days beside a day -/

/-- `date(year, month, day)`. -/
def date? (year month day : ℕ) : Option Date :=
  if h : (minYear ≤ year ∧ year ≤ maxYear) ∧ (1 ≤ month ∧ month ≤ 12) ∧
      1 ≤ day ∧ day ≤ daysInMonth year month then
    some ⟨year, month, day, h.1, h.2.1, h.2.2⟩
  else none

def next? (d : Date) : Option Date :=
  if d.day < daysInMonth d.year d.month then date? d.year d.month (d.day + 1)
  else if d.month < 12 then date? d.year (d.month + 1) 1
  else date? (d.year + 1) 1 1

def prev? (d : Date) : Option Date :=
  if 1 < d.day then date? d.year d.month (d.day - 1)
  else if 1 < d.month then date? d.year (d.month - 1) (daysInMonth d.year (d.month - 1))
  else date? (d.year - 1) 12 31

/-- `d + timedelta(days=n)`. -/
def plusDays? (d : Date) : ℕ → Option Date
  | 0 => some d
  | n + 1 => (plusDays? d n).bind next?

/-- `d - timedelta(days=n)`. -/
def minusDays? (d : Date) : ℕ → Option Date
  | 0 => some d
  | n + 1 => (minusDays? d n).bind prev?

/-- 1 January of year 1. -/
def firstDate : Date := ⟨1, 1, 1, by decide, by decide, by decide⟩

/-- 31 December of year 9999. -/
def lastDate : Date := ⟨9999, 12, 31, by decide, by decide, by decide⟩

/-- The number of the last date. -/
def maxOrdinal : ℕ := 3652059

section Beside

variable {d e : Date} {year month day n : ℕ}

theorem date?_eq_some : date? year month day = some d ↔
    d.year = year ∧ d.month = month ∧ d.day = day := by
  unfold date?
  split_ifs with h
  · rw [Option.some.injEq]
    constructor
    · rintro rfl
      exact ⟨rfl, rfl, rfl⟩
    · rintro ⟨rfl, rfl, rfl⟩
      rfl
  · refine iff_of_false (by simp) ?_
    rintro ⟨rfl, rfl, rfl⟩
    exact h ⟨d.year_mem, d.month_mem, d.day_mem⟩

theorem date?_eq_none : date? year month day = none ↔
    ¬ ((minYear ≤ year ∧ year ≤ maxYear) ∧ (1 ≤ month ∧ month ≤ 12) ∧
      1 ≤ day ∧ day ≤ daysInMonth year month) := by
  unfold date?
  split_ifs with h <;> simp [h]

theorem ordinal_next? (h : next? d = some e) : e.ordinal = d.ordinal + 1 := by
  have hday := d.day_mem
  unfold next? at h
  unfold Date.ordinal
  split_ifs at h with hin hmonth
  · obtain ⟨hy, hm, hd⟩ := date?_eq_some.1 h
    rw [hy, hm, hd]
    omega
  · obtain ⟨hy, hm, hd⟩ := date?_eq_some.1 h
    rw [hy, hm, hd, daysBeforeMonth_succ d.month_mem.1]
    omega
  · obtain ⟨hy, hm, hd⟩ := date?_eq_some.1 h
    have htwelve : d.month = 12 := by
      have := d.month_mem.2
      omega
    have hthirteen : daysBeforeMonth d.year 13 =
        daysBeforeMonth d.year 12 + daysInMonth d.year 12 := daysBeforeMonth_succ (by norm_num)
    have hone : daysBeforeMonth (d.year + 1) 1 = 0 := rfl
    rw [hy, hm, hd, daysBeforeYear_succ d.year_mem.1, hthirteen, hone, htwelve]
    rw [htwelve] at hday hin
    omega

theorem ordinal_prev? (h : prev? d = some e) : d.ordinal = e.ordinal + 1 := by
  have hday := d.day_mem
  unfold prev? at h
  unfold Date.ordinal
  split_ifs at h with hin hmonth
  · obtain ⟨hy, hm, hd⟩ := date?_eq_some.1 h
    rw [hy, hm, hd]
    omega
  · obtain ⟨hy, hm, hd⟩ := date?_eq_some.1 h
    obtain ⟨m, hm'⟩ : ∃ m, d.month = m + 1 := ⟨d.month - 1, by omega⟩
    rw [hm', Nat.add_sub_cancel] at hm hd
    rw [hy, hm, hd, hm', daysBeforeMonth_succ (by omega)]
    omega
  · obtain ⟨hy, hm, hd⟩ := date?_eq_some.1 h
    have hone : d.month = 1 := by
      have := d.month_mem.1
      omega
    have hmin : 1 ≤ d.year := d.year_mem.1
    obtain ⟨y, hy'⟩ : ∃ y, d.year = y + 1 := ⟨d.year - 1, by omega⟩
    have hthirteen : daysBeforeMonth y 13 = daysBeforeMonth y 12 + 31 :=
      daysBeforeMonth_succ (by norm_num)
    have hzero : daysBeforeMonth (y + 1) 1 = 0 := rfl
    have hypos : 1 ≤ y := by
      have := e.year_mem.1
      unfold minYear at this
      omega
    rw [hy', Nat.add_sub_cancel] at hy
    rw [hy, hm, hd, hy', hone, daysBeforeYear_succ hypos, hthirteen, hzero]
    omega

theorem ordinal_firstDate : firstDate.ordinal = 1 := by decide

theorem ordinal_lastDate : lastDate.ordinal = maxOrdinal := by decide

/-- The last date, and only that, has no day after it. -/
theorem next?_eq_none : next? d = none ↔ d.ordinal = maxOrdinal := by
  constructor
  · intro h
    have hyear := d.year_mem
    have hmonth := d.month_mem
    have hday := d.day_mem
    have hjanuary : daysInMonth (d.year + 1) 1 = 31 := rfl
    have hlong := daysInMonth_pos d.year (d.month + 1)
    unfold next? at h
    split_ifs at h with hin hm
    · exact absurd ⟨hyear, hmonth, by omega, hin⟩ (date?_eq_none.1 h)
    · exact absurd ⟨hyear, ⟨by omega, hm⟩, by omega, by omega⟩ (date?_eq_none.1 h)
    · have hlast : d.year = maxYear := by
        by_contra hne
        exact date?_eq_none.1 h ⟨⟨by omega, by omega⟩, by omega, by omega, by omega⟩
      have htwelve : d.month = 12 := by omega
      have hdays : daysInMonth d.year 12 = 31 := rfl
      rw [htwelve] at hday hin
      have hd : d = lastDate := Date.ext hlast htwelve (by show d.day = 31; omega)
      rw [hd, ordinal_lastDate]
  · intro h
    rw [ordinal_injective (h.trans ordinal_lastDate.symm)]
    decide

/-- The first date, and only that, has no day before it. -/
theorem prev?_eq_none : prev? d = none ↔ d.ordinal = 1 := by
  constructor
  · intro h
    have hyear := d.year_mem
    have hmonth := d.month_mem
    have hday := d.day_mem
    have hlong := daysInMonth_pos d.year (d.month - 1)
    have hdecember : daysInMonth (d.year - 1) 12 = 31 := rfl
    unfold prev? at h
    split_ifs at h with hin hm
    · exact absurd ⟨hyear, hmonth, by omega, by omega⟩ (date?_eq_none.1 h)
    · exact absurd ⟨hyear, by omega, by omega, le_rfl⟩ (date?_eq_none.1 h)
    · have hfirst : d.year = minYear := by
        by_contra hne
        exact date?_eq_none.1 h ⟨⟨by omega, by omega⟩, by omega, by omega, by omega⟩
      have hd : d = firstDate := Date.ext hfirst (by show d.month = 1; omega)
        (by show d.day = 1; omega)
      rw [hd, ordinal_firstDate]
  · intro h
    rw [ordinal_injective (h.trans ordinal_firstDate.symm)]
    decide

theorem ordinal_le_max (d : Date) : d.ordinal ≤ maxOrdinal := by
  rw [← ordinal_lastDate]
  rcases d.year_mem.2.lt_or_eq with hyear | hyear
  · exact (ordinal_lt_of_year_lt (e := lastDate) hyear).le
  · rcases d.month_mem.2.lt_or_eq with hmonth | hmonth
    · exact (ordinal_lt_of_month_lt (e := lastDate) hyear hmonth).le
    · have hday := d.day_mem.2
      have hlast : daysInMonth d.year 12 = 31 := rfl
      rw [hmonth] at hday
      unfold Date.ordinal
      rw [hyear, hmonth]
      exact Nat.add_le_add_left (hday.trans hlast.le) _

theorem ordinal_plusDays? (h : plusDays? d n = some e) : e.ordinal = d.ordinal + n := by
  induction n generalizing e with
  | zero =>
    cases h
    rfl
  | succ n ih =>
    obtain ⟨f, hf, he⟩ := Option.bind_eq_some_iff.1 h
    rw [ordinal_next? he, ih hf]
    omega

theorem ordinal_minusDays? (h : minusDays? d n = some e) : d.ordinal = e.ordinal + n := by
  induction n generalizing e with
  | zero =>
    cases h
    rfl
  | succ n ih =>
    obtain ⟨f, hf, he⟩ := Option.bind_eq_some_iff.1 h
    rw [ih hf, ordinal_prev? he]
    omega

theorem plusDays?_isSome_iff : (plusDays? d n).isSome ↔ d.ordinal + n ≤ maxOrdinal := by
  induction n with
  | zero => simpa [plusDays?] using ordinal_le_max d
  | succ n ih =>
    cases hn : plusDays? d n with
    | none =>
      rw [hn] at ih
      have hover : ¬ d.ordinal + n ≤ maxOrdinal := fun hle => by simpa using ih.2 hle
      simp only [plusDays?, hn, Option.bind_none, Option.isSome_none, Bool.false_eq_true, false_iff]
      omega
    | some e =>
      have he := ordinal_plusDays? hn
      have hle := ordinal_le_max e
      rw [plusDays?, hn, Option.bind_some, Option.isSome_iff_ne_none, ne_eq, next?_eq_none]
      omega

theorem minusDays?_isSome_iff : (minusDays? d n).isSome ↔ n < d.ordinal := by
  induction n with
  | zero => simpa [minusDays?] using ordinal_pos d
  | succ n ih =>
    cases hn : minusDays? d n with
    | none =>
      rw [hn] at ih
      have hover : ¬ n < d.ordinal := fun hlt => by simpa using ih.2 hlt
      simp only [minusDays?, hn, Option.bind_none, Option.isSome_none, Bool.false_eq_true,
        false_iff]
      omega
    | some e =>
      have he := ordinal_minusDays? hn
      have hpos := ordinal_pos e
      rw [minusDays?, hn, Option.bind_some, Option.isSome_iff_ne_none, ne_eq, prev?_eq_none]
      omega

end Beside

/-! ## Weeks and months -/

/-- `d.weekday()`: Monday is 0. -/
def weekday (d : Date) : ℕ := (d.ordinal + 6) % 7

/-- `d.replace(day=1)`. -/
def monthStart (d : Date) : Date :=
  ⟨d.year, d.month, 1, d.year_mem, d.month_mem, le_rfl,
    le_trans (by norm_num) (daysInMonth_pos d.year d.month)⟩

/-- The first of the month after that of `d`. -/
def nextMonth? (d : Date) : Option Date :=
  if d.month = 12 then date? (d.year + 1) 1 1 else date? d.year (d.month + 1) 1

/-- The first of the month before that of `d`. -/
def lastMonth? (d : Date) : Option Date :=
  if d.month = 1 then date? (d.year - 1) 12 1 else date? d.year (d.month - 1) 1

section Months

variable {d e f : Date}

theorem ordinal_monthStart (d : Date) :
    (monthStart d).ordinal = daysBeforeYear d.year + daysBeforeMonth d.year d.month + 1 := rfl

theorem ordinal_eq_monthStart_add (d : Date) : d.ordinal + 1 = (monthStart d).ordinal + d.day := by
  rw [ordinal_monthStart]
  unfold Date.ordinal
  omega

theorem monthStart_eq_iff : monthStart d = monthStart e ↔ d.year = e.year ∧ d.month = e.month := by
  simp [monthStart]

/-- The first of the next month follows the last day of this one. -/
theorem ordinal_nextMonth? (h : nextMonth? d = some e) :
    e.ordinal = (monthStart d).ordinal + daysInMonth d.year d.month := by
  rw [ordinal_monthStart]
  unfold nextMonth? at h
  unfold Date.ordinal
  split_ifs at h with htwelve
  · obtain ⟨hy, hm, hd⟩ := date?_eq_some.1 h
    have hthirteen : daysBeforeMonth d.year 13 =
        daysBeforeMonth d.year 12 + daysInMonth d.year 12 := daysBeforeMonth_succ (by norm_num)
    have hone : daysBeforeMonth (d.year + 1) 1 = 0 := rfl
    rw [hy, hm, hd, daysBeforeYear_succ d.year_mem.1, hthirteen, hone, htwelve]
    omega
  · obtain ⟨hy, hm, hd⟩ := date?_eq_some.1 h
    rw [hy, hm, hd, daysBeforeMonth_succ d.month_mem.1]
    omega

/-- The dates from the first of a month to that of the next one belong to the month. -/
theorem monthStart_eq_of_mem (h : nextMonth? d = some e) (hstart : monthStart d ≤ f)
    (hstop : f < e) : monthStart f = monthStart d := by
  have hle : (monthStart d).ordinal ≤ f.ordinal := hstart
  have hlt : f.ordinal < e.ordinal := hstop
  rw [ordinal_nextMonth? h] at hlt
  -- the day of the month with the number of `f`
  let g : Date := ⟨d.year, d.month, f.ordinal - (monthStart d).ordinal + 1, d.year_mem,
    d.month_mem, by omega, by omega⟩
  have hg : f = g := by
    apply ordinal_injective
    rw [ordinal_monthStart] at hle
    show f.ordinal = daysBeforeYear d.year + daysBeforeMonth d.year d.month +
      (f.ordinal - (daysBeforeYear d.year + daysBeforeMonth d.year d.month + 1) + 1)
    omega
  rw [hg]
  rfl

theorem nextMonth?_eq_some : nextMonth? d = some e ↔
    e.day = 1 ∧ (d.month = 12 ∧ e.year = d.year + 1 ∧ e.month = 1 ∨
      d.month ≠ 12 ∧ e.year = d.year ∧ e.month = d.month + 1) := by
  unfold nextMonth?
  split_ifs with htwelve <;> rw [date?_eq_some] <;> simp [htwelve] <;> tauto

theorem lastMonth?_eq_some : lastMonth? d = some e ↔
    e.day = 1 ∧ (d.month = 1 ∧ e.year = d.year - 1 ∧ e.month = 12 ∨
      d.month ≠ 1 ∧ e.year = d.year ∧ e.month = d.month - 1) := by
  unfold lastMonth?
  split_ifs with hone <;> rw [date?_eq_some] <;> simp [hone] <;> tauto

/-- The month before the next one is this one. -/
theorem lastMonth?_of_nextMonth? (h : nextMonth? d = some e) :
    lastMonth? e = some (monthStart d) := by
  have hmonth := d.month_mem
  rw [nextMonth?_eq_some] at h
  rw [lastMonth?_eq_some]
  refine ⟨rfl, ?_⟩
  show e.month = 1 ∧ d.year = e.year - 1 ∧ d.month = 12 ∨
    e.month ≠ 1 ∧ d.year = e.year ∧ d.month = e.month - 1
  omega

/-- The month after the last one is this one. -/
theorem nextMonth?_of_lastMonth? (h : lastMonth? d = some e) :
    nextMonth? e = some (monthStart d) := by
  have hmonth := d.month_mem
  have hyear := d.year_mem.1
  have hyear' := e.year_mem.1
  unfold minYear at hyear hyear'
  rw [lastMonth?_eq_some] at h
  rw [nextMonth?_eq_some]
  refine ⟨rfl, ?_⟩
  show e.month = 12 ∧ d.year = e.year + 1 ∧ d.month = 1 ∨
    e.month ≠ 12 ∧ d.year = e.year ∧ d.month = e.month + 1
  omega

end Months

end Calendar

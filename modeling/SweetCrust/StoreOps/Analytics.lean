import SweetCrust.Lib.Calendar
import SweetCrust.Lib.Decimal
import SweetCrust.Lib.Guard
import SweetCrust.Lib.Tiling
import SweetCrust.Data.Rows

/-!
# The periods of a shop's analytics

A shop looks at its sales by the day, the week or the month: at the period that contains a date,
beside the period before it, cut into buckets.

Times are whole seconds from the day before 1 January of year 1.

* `periodBounds`, `ordersBetween`, `bucketSeries`, `totalSales` — the source's functions.
* `InCalendar` — the period, the first day after it and the period before lie in the calendar.
* `TilesTime`, `periodBounds_tilesTime` — the periods abut, and the buckets cut each of them.
-/

namespace SweetCrust

open Tabular Guard Calendar Tiling Decimal Rounding

namespace Analytics

inductive Period
  | daily | weekly | monthly
  deriving DecidableEq

/-- What `_period_bounds` returns; all its times are midnights. -/
structure Bounds where
  start : Date
  stop : Date
  prevStart : Date
  prevStop : Date
  label : String
  deriving DecidableEq

/-! ## Texts of dates -/

def monthNames : List String :=
  ["January", "February", "March", "April", "May", "June", "July", "August", "September",
    "October", "November", "December"]

def dayNames : List String := ["Mon", "Tue", "Wed", "Thu", "Fri", "Sat", "Sun"]

/-- `%B`. -/
def monthName (d : Date) : String := monthNames.getD (d.month - 1) ""

/-- `%b`. -/
def shortMonth (d : Date) : String := String.ofList ((monthName d).toList.take 3)

/-- `%a`. -/
def dayName (d : Date) : String := dayNames.getD (weekday d) ""

/-- `%d %b`. -/
def dayMonth (d : Date) : String := String.ofList (twoDigits d.day) ++ " " ++ shortMonth d

def yearText (d : Date) : String := String.ofList (natText d.year)

/-- `d.isoformat()`. -/
def isoformat (d : Date) : String :=
  let year := natText d.year
  String.ofList (List.replicate (4 - year.length) '0' ++ year ++
    '-' :: twoDigits d.month ++ '-' :: twoDigits d.day)

/-! ## The bounds of a period -/

/-- A date that `timedelta` reaches. -/
def reached (d : Option Date) : Except AppError Date :=
  orRaise d (.uncaught "date value out of range")

/-- A date that is made of a year and a month. -/
def made (year : ℕ) (d : Option Date) : Except AppError Date :=
  orRaise d (.uncaught ("year " ++ String.ofList (natText year) ++ " is out of range"))

/-- `_period_bounds`. -/
def periodBounds (period : Period) (anchor : Date) : Except AppError Bounds :=
  match period with
  | .daily => do
    let start := anchor
    let stop ← reached (plusDays? start 1)
    let prevStart ← reached (minusDays? start 1)
    return ⟨start, stop, prevStart, start,
      dayMonth anchor ++ " " ++ yearText anchor ++ ", " ++ dayName anchor⟩
  | .weekly => do
    let start ← reached (minusDays? anchor (weekday anchor))
    let stop ← reached (plusDays? start 7)
    let prevStart ← reached (minusDays? start 7)
    let last ← reached (minusDays? stop 1)
    return ⟨start, stop, prevStart, start,
      dayMonth start ++ " – " ++ dayMonth last ++ " " ++ yearText last⟩
  | .monthly => do
    let start := monthStart anchor
    let stop ← made (anchor.year + 1) (nextMonth? anchor)
    let prevStart ← made (start.year - 1) (lastMonth? start)
    return ⟨start, stop, prevStart, start, monthName anchor ++ " " ++ yearText anchor⟩

/-! ## Orders and buckets -/

def hour : ℕ := 3600

def day : ℕ := 24 * hour

/-- `datetime.combine(d, time.min)`. -/
def midnight (d : Date) : ℕ := d.ordinal * day

/-- `_orders_between`. -/
def ordersBetween (orders : Table Order) (shopUserId start stop : ℕ) : List Order :=
  ((orders.select fun o =>
      o.shopUserId = some shopUserId ∧ start ≤ o.createdAt ∧ o.createdAt < stop).map
    Prod.snd).insertionSort fun a b => a.createdAt ≤ b.createdAt

/-- `_is_sale`. -/
def isSale (o : Order) : Bool := o.status ∉ [OrderStatus.cancelled, .rejected]

def sales (orders : List Order) : List Order := orders.filter isSale

/-- `total_sales` of `shop_analytics`. -/
def totalSales (orders : List Order) : ℚ := round2 ((sales orders).map Order.finalAmount).sum

/-- The amount of a bucket: of the sales from one time to another. -/
def amountBetween (sales : List Order) (span : ℕ × ℕ) : ℚ :=
  round2 (sumWithin Order.createdAt Order.finalAmount sales span)

structure Bucket where
  label : String
  amount : ℚ
  hour : Option ℕ := none
  day : Option String := none

/-- `f"{hr % 12 or 12} {ampm}"`. -/
def hourLabel (hr : ℕ) : String :=
  String.ofList (natText (if hr % 12 = 0 then 12 else hr % 12)) ++ if hr < 12 then " AM" else " PM"

/-- The days of the loop of `_bucket_series`, from one midnight to another. -/
def daysUntil (cur stop : Date) : List Date :=
  if cur < stop then
    match _h : next? cur with
    | some nxt => cur :: daysUntil nxt stop
    | none => [cur]
  else []
termination_by maxOrdinal - cur.ordinal
decreasing_by
  have hnext := ordinal_next? _h
  have hle := ordinal_le_max nxt
  omega

/-- The times from which and to which the buckets reach. -/
def spans (period : Period) (start stop : Date) : List (ℕ × ℕ) :=
  match period with
  | .daily => (List.range 6).map fun i =>
      (midnight start + i * (4 * hour), midnight start + i * (4 * hour) + 4 * hour)
  | .weekly => (List.range 7).map fun i =>
      (midnight start + i * day, midnight start + i * day + day)
  | .monthly => (daysUntil start stop).map fun cur => (midnight cur, midnight cur + day)

/-- `_bucket_series`. -/
def bucketSeries (period : Period) (start stop : Date) (orders : List Order) : List Bucket :=
  let sales := sales orders
  match period with
  | .daily => (List.range 6).map fun i =>
      let b0 := midnight start + i * (4 * hour)
      { label := hourLabel (4 * i), amount := amountBetween sales (b0, b0 + 4 * hour)
        hour := some (4 * i) }
  | .weekly => (List.range 7).map fun i =>
      let d0 := midnight start + i * day
      { label := dayNames.getD ((weekday start + i) % 7) ""
        amount := amountBetween sales (d0, d0 + day)
        day := (plusDays? start i).map isoformat }
  | .monthly => (daysUntil start stop).map fun cur =>
      { label := String.ofList (natText cur.day)
        amount := amountBetween sales (midnight cur, midnight cur + day)
        day := some (isoformat cur) }

/-! ## Where the calendar suffices -/

/-- The first date whose period and the one before it lie in the calendar. -/
def firstAnchor : Period → Date
  | .daily => ⟨1, 1, 2, firstDate.year_mem, firstDate.month_mem, by decide⟩
  | .weekly => ⟨1, 1, 8, firstDate.year_mem, firstDate.month_mem, by decide⟩
  | .monthly => ⟨1, 2, 1, firstDate.year_mem, by decide, by decide⟩

/-- The last date whose period is followed by a day of the calendar. -/
def lastAnchor : Period → Date
  | .daily => ⟨9999, 12, 30, lastDate.year_mem, lastDate.month_mem, by decide⟩
  | .weekly => ⟨9999, 12, 26, lastDate.year_mem, lastDate.month_mem, by decide⟩
  | .monthly => ⟨9999, 11, 30, lastDate.year_mem, by decide, by decide⟩

def InCalendar (period : Period) (anchor : Date) : Prop :=
  firstAnchor period ≤ anchor ∧ anchor ≤ lastAnchor period

instance (period : Period) (anchor : Date) : Decidable (InCalendar period anchor) :=
  inferInstanceAs (Decidable (_ ∧ _))

section Periods

variable {period : Period} {anchor other : Date} {b : Bounds}

theorem weekday_lt (d : Date) : weekday d < 7 := Nat.mod_lt _ (by norm_num)

theorem reached_eq_ok {d : Option Date} {e : Date} : reached d = .ok e ↔ d = some e :=
  orRaise_eq_ok

theorem made_eq_ok {year : ℕ} {d : Option Date} {e : Date} : made year d = .ok e ↔ d = some e :=
  orRaise_eq_ok

/-- The bounds of a day. -/
theorem daily_eq_ok : periodBounds .daily anchor = .ok b ↔
    plusDays? anchor 1 = some b.stop ∧ minusDays? anchor 1 = some b.prevStart ∧
      b.start = anchor ∧ b.prevStop = anchor ∧
      b.label = dayMonth anchor ++ " " ++ yearText anchor ++ ", " ++ dayName anchor := by
  simp only [periodBounds, bind_eq_ok, reached_eq_ok, pure_eq_ok]
  constructor
  · rintro ⟨stop, hstop, prevStart, hprev, rfl⟩
    exact ⟨hstop, hprev, rfl, rfl, rfl⟩
  · rintro ⟨hstop, hprev, hstart, hprevStop, hlabel⟩
    refine ⟨b.stop, hstop, b.prevStart, hprev, ?_⟩
    cases b
    simp_all

/-- The bounds of a week. -/
theorem weekly_eq_ok : periodBounds .weekly anchor = .ok b ↔
    minusDays? anchor (weekday anchor) = some b.start ∧ plusDays? b.start 7 = some b.stop ∧
      minusDays? b.start 7 = some b.prevStart ∧ b.prevStop = b.start ∧
      ∃ last, minusDays? b.stop 1 = some last ∧
        b.label = dayMonth b.start ++ " – " ++ dayMonth last ++ " " ++ yearText last := by
  simp only [periodBounds, bind_eq_ok, reached_eq_ok, pure_eq_ok]
  constructor
  · rintro ⟨start, hstart, stop, hstop, prevStart, hprev, last, hlast, rfl⟩
    exact ⟨hstart, hstop, hprev, rfl, last, hlast, rfl⟩
  · rintro ⟨hstart, hstop, hprev, hprevStop, last, hlast, hlabel⟩
    refine ⟨b.start, hstart, b.stop, hstop, b.prevStart, hprev, last, hlast, ?_⟩
    cases b
    simp_all

/-- The bounds of a month. -/
theorem monthly_eq_ok : periodBounds .monthly anchor = .ok b ↔
    nextMonth? anchor = some b.stop ∧ lastMonth? (monthStart anchor) = some b.prevStart ∧
      b.start = monthStart anchor ∧ b.prevStop = monthStart anchor ∧
      b.label = monthName anchor ++ " " ++ yearText anchor := by
  simp only [periodBounds, bind_eq_ok, made_eq_ok, pure_eq_ok]
  constructor
  · rintro ⟨stop, hstop, prevStart, hprev, rfl⟩
    exact ⟨hstop, hprev, rfl, rfl, rfl⟩
  · rintro ⟨hstop, hprev, hstart, hprevStop, hlabel⟩
    refine ⟨b.stop, hstop, b.prevStart, hprev, ?_⟩
    cases b
    simp_all

theorem ordinal_firstAnchor_daily : (firstAnchor .daily).ordinal = 2 := by decide

theorem ordinal_lastAnchor_daily : (lastAnchor .daily).ordinal = 3652058 := by decide

theorem ordinal_firstAnchor_weekly : (firstAnchor .weekly).ordinal = 8 := by decide

theorem ordinal_lastAnchor_weekly : (lastAnchor .weekly).ordinal = 3652054 := by decide

/-- There is a month after this one up to November of year 9999. -/
theorem nextMonth?_isSome_iff :
    (nextMonth? anchor).isSome ↔ anchor ≤ lastAnchor .monthly := by
  have hyear := anchor.year_mem
  have hmonth := anchor.month_mem
  have hjanuary : daysInMonth (anchor.year + 1) 1 = 31 := rfl
  have hlong := daysInMonth_pos anchor.year (anchor.month + 1)
  -- 1 December of year 9999
  let december : Date := ⟨9999, 12, 1, by decide, by decide, by decide⟩
  have hdecember : december.ordinal = (lastAnchor .monthly).ordinal + 1 := by decide
  unfold minYear maxYear at hyear
  by_cases hend : anchor.year = 9999 ∧ anchor.month = 12
  · refine iff_of_false ?_ (not_le.2 (ordinal_lt_of_month_lt hend.1.symm ?_))
    · rw [Bool.not_eq_true, Option.isSome_eq_false_iff, Option.isNone_iff_eq_none, nextMonth?,
        if_pos hend.2, date?_eq_none]
      unfold minYear maxYear
      omega
    · rw [hend.2]
      decide
  · have hlt : anchor.ordinal < december.ordinal := by
      rcases hyear.2.lt_or_eq with hlt | heq
      · exact ordinal_lt_of_year_lt hlt
      · exact ordinal_lt_of_month_lt heq (by show anchor.month < 12; omega)
    refine iff_of_true ?_ (show anchor.ordinal ≤ _ by omega)
    rw [Option.isSome_iff_ne_none, nextMonth?]
    split_ifs with htwelve
    · rw [ne_eq, date?_eq_none, not_not]
      unfold minYear maxYear
      omega
    · rw [ne_eq, date?_eq_none, not_not]
      unfold minYear maxYear
      omega

/-- There is a month before this one from February of year 1. -/
theorem lastMonth?_isSome_iff :
    (lastMonth? (monthStart anchor)).isSome ↔ firstAnchor .monthly ≤ anchor := by
  have hyear := anchor.year_mem
  have hmonth := anchor.month_mem
  have hdecember : daysInMonth (anchor.year - 1) 12 = 31 := rfl
  have hlong := daysInMonth_pos anchor.year (anchor.month - 1)
  -- 31 January of year 1
  let january : Date := ⟨1, 1, 31, by decide, by decide, by decide⟩
  have hjanuary : (firstAnchor .monthly).ordinal = january.ordinal + 1 := by decide
  have hlast : lastMonth? (monthStart anchor) = if anchor.month = 1
      then date? (anchor.year - 1) 12 1 else date? anchor.year (anchor.month - 1) 1 := rfl
  unfold minYear maxYear at hyear
  by_cases hend : anchor.year = 1 ∧ anchor.month = 1
  · refine iff_of_false ?_ (not_le.2 (ordinal_lt_of_month_lt hend.1 ?_))
    · rw [Bool.not_eq_true, Option.isSome_eq_false_iff, Option.isNone_iff_eq_none, hlast,
        if_pos hend.2, date?_eq_none]
      unfold minYear maxYear
      omega
    · rw [hend.2]
      decide
  · have hlt : january.ordinal < anchor.ordinal := by
      rcases hyear.1.lt_or_eq with hlt | heq
      · exact ordinal_lt_of_year_lt hlt
      · exact ordinal_lt_of_month_lt heq (by show 1 < anchor.month; omega)
    refine iff_of_true ?_ (show (firstAnchor .monthly).ordinal ≤ anchor.ordinal by omega)
    rw [Option.isSome_iff_ne_none, hlast]
    split_ifs with hone
    · rw [ne_eq, date?_eq_none, not_not]
      unfold minYear maxYear
      omega
    · rw [ne_eq, date?_eq_none, not_not]
      unfold minYear maxYear
      omega

theorem exists_daily_iff :
    (∃ b, periodBounds .daily anchor = .ok b) ↔ InCalendar .daily anchor := by
  have hplus : (plusDays? anchor 1).isSome ↔ anchor.ordinal + 1 ≤ 3652059 := plusDays?_isSome_iff
  have hminus : (minusDays? anchor 1).isSome ↔ 1 < anchor.ordinal := minusDays?_isSome_iff
  have hin : InCalendar .daily anchor ↔ 2 ≤ anchor.ordinal ∧ anchor.ordinal ≤ 3652058 := by
    rw [← ordinal_firstAnchor_daily, ← ordinal_lastAnchor_daily]
    rfl
  rw [hin]
  constructor
  · rintro ⟨b, hb⟩
    obtain ⟨hstop, hprev, -⟩ := daily_eq_ok.1 hb
    have hle := hplus.1 (hstop ▸ rfl)
    have hlt := hminus.1 (hprev ▸ rfl)
    omega
  · rintro ⟨hlo, hhi⟩
    obtain ⟨stop, hstop⟩ := Option.isSome_iff_exists.1 (hplus.2 (by omega))
    obtain ⟨prev, hprev⟩ := Option.isSome_iff_exists.1 (hminus.2 (by omega))
    exact ⟨⟨anchor, stop, prev, anchor, _⟩, daily_eq_ok.2 ⟨hstop, hprev, rfl, rfl, rfl⟩⟩

theorem exists_weekly_iff :
    (∃ b, periodBounds .weekly anchor = .ok b) ↔ InCalendar .weekly anchor := by
  have hin : InCalendar .weekly anchor ↔ 8 ≤ anchor.ordinal ∧ anchor.ordinal ≤ 3652054 := by
    rw [← ordinal_firstAnchor_weekly, ← ordinal_lastAnchor_weekly]
    rfl
  have hpos := ordinal_pos anchor
  have hweekday : weekday anchor = (anchor.ordinal + 6) % 7 := rfl
  rw [hin]
  constructor
  · rintro ⟨b, hb⟩
    obtain ⟨hstart, hstop, hprev, -⟩ := weekly_eq_ok.1 hb
    have hordinal := ordinal_minusDays? hstart
    have hle := ordinal_plusDays? hstop
    have hmax := ordinal_le_max b.stop
    have hlt := ordinal_minusDays? hprev
    have hprevPos := ordinal_pos b.prevStart
    unfold maxOrdinal at hmax
    omega
  · rintro ⟨hlo, hhi⟩
    have hsome : (minusDays? anchor (weekday anchor)).isSome :=
      minusDays?_isSome_iff.2 (by omega)
    obtain ⟨start, hstart⟩ := Option.isSome_iff_exists.1 hsome
    have hordinal := ordinal_minusDays? hstart
    have hstopSome : (plusDays? start 7).isSome :=
      plusDays?_isSome_iff.2 (by unfold maxOrdinal; omega)
    obtain ⟨stop, hstop⟩ := Option.isSome_iff_exists.1 hstopSome
    have hprevSome : (minusDays? start 7).isSome := minusDays?_isSome_iff.2 (by omega)
    obtain ⟨prev, hprev⟩ := Option.isSome_iff_exists.1 hprevSome
    have hstopOrdinal := ordinal_plusDays? hstop
    have hlastSome : (minusDays? stop 1).isSome := minusDays?_isSome_iff.2 (by omega)
    obtain ⟨last, hlast⟩ := Option.isSome_iff_exists.1 hlastSome
    exact ⟨⟨start, stop, prev, start,
        dayMonth start ++ " – " ++ dayMonth last ++ " " ++ yearText last⟩,
      weekly_eq_ok.2 ⟨hstart, hstop, hprev, rfl, last, hlast, rfl⟩⟩

theorem exists_monthly_iff :
    (∃ b, periodBounds .monthly anchor = .ok b) ↔ InCalendar .monthly anchor := by
  unfold InCalendar
  rw [← nextMonth?_isSome_iff, ← lastMonth?_isSome_iff]
  constructor
  · rintro ⟨b, hb⟩
    obtain ⟨hstop, hprev, -⟩ := monthly_eq_ok.1 hb
    rw [hstop, hprev]
    exact ⟨rfl, rfl⟩
  · rintro ⟨hprev, hstop⟩
    obtain ⟨stop, hstop⟩ := Option.isSome_iff_exists.1 hstop
    obtain ⟨prev, hprev⟩ := Option.isSome_iff_exists.1 hprev
    exact ⟨⟨monthStart anchor, stop, prev, monthStart anchor, _⟩,
      monthly_eq_ok.2 ⟨hstop, hprev, rfl, rfl, rfl⟩⟩

/-- The bounds exist for the dates whose periods lie in the calendar. -/
theorem exists_bounds_iff (period : Period) (anchor : Date) :
    (∃ b, periodBounds period anchor = .ok b) ↔ InCalendar period anchor := by
  cases period with
  | daily => exact exists_daily_iff
  | weekly => exact exists_weekly_iff
  | monthly => exact exists_monthly_iff

/-! ## The periods abut -/

/-- A period contains its date, and ends where the next one starts. -/
theorem start_le_lt_stop (h : periodBounds period anchor = .ok b) :
    b.start ≤ anchor ∧ anchor < b.stop := by
  show b.start.ordinal ≤ anchor.ordinal ∧ anchor.ordinal < b.stop.ordinal
  cases period with
  | daily =>
    obtain ⟨hstop, -, hstart, -⟩ := daily_eq_ok.1 h
    have hordinal := ordinal_plusDays? hstop
    rw [hstart]
    omega
  | weekly =>
    obtain ⟨hstart, hstop, -⟩ := weekly_eq_ok.1 h
    have hordinal := ordinal_minusDays? hstart
    have hordinal' := ordinal_plusDays? hstop
    have hweekday := weekday_lt anchor
    omega
  | monthly =>
    obtain ⟨hstop, -, hstart, -⟩ := monthly_eq_ok.1 h
    have hordinal := ordinal_nextMonth? hstop
    have hday := ordinal_eq_monthStart_add anchor
    have hmem := anchor.day_mem
    rw [hstart]
    omega

theorem prevStop_eq (h : periodBounds period anchor = .ok b) : b.prevStop = b.start := by
  cases period with
  | daily =>
    obtain ⟨-, -, hstart, hprevStop, -⟩ := daily_eq_ok.1 h
    rw [hstart, hprevStop]
  | weekly => exact (weekly_eq_ok.1 h).2.2.2.1
  | monthly =>
    obtain ⟨-, -, hstart, hprevStop, -⟩ := monthly_eq_ok.1 h
    rw [hstart, hprevStop]

/-- Two dates of one week have one Monday. -/
theorem minusDays?_weekday_eq {start : Date} (h : minusDays? anchor (weekday anchor) = some start)
    (hlo : start ≤ other) (hhi : other.ordinal < start.ordinal + 7) :
    minusDays? other (weekday other) = some start := by
  have hordinal := ordinal_minusDays? h
  have hweekday : weekday anchor = (anchor.ordinal + 6) % 7 := rfl
  have hweekday' : weekday other = (other.ordinal + 6) % 7 := rfl
  have hle : start.ordinal ≤ other.ordinal := hlo
  have hpos := ordinal_pos start
  have hsome : (minusDays? other (weekday other)).isSome := minusDays?_isSome_iff.2 (by omega)
  obtain ⟨monday, hmonday⟩ := Option.isSome_iff_exists.1 hsome
  have hordinal' := ordinal_minusDays? hmonday
  have heq : monday = start := ordinal_injective (by omega)
  rw [hmonday, heq]

/-- The bounds depend only on the period that contains the date. -/
theorem periodBounds_eq_of_mem (h : periodBounds period anchor = .ok b) (hlo : b.start ≤ other)
    (hhi : other < b.stop) : periodBounds period other = .ok b := by
  cases period with
  | daily =>
    obtain ⟨hstop, -, hstart, -⟩ := daily_eq_ok.1 h
    have hle : b.start.ordinal ≤ other.ordinal := hlo
    have hlt : other.ordinal < b.stop.ordinal := hhi
    have hordinal := ordinal_plusDays? hstop
    rw [hstart] at hle
    have heq : other = anchor := ordinal_injective (by omega)
    rw [heq, h]
  | weekly =>
    obtain ⟨hstart, hstop, hrest⟩ := weekly_eq_ok.1 h
    have hlt : other.ordinal < b.stop.ordinal := hhi
    have hordinal := ordinal_plusDays? hstop
    exact weekly_eq_ok.2 ⟨minusDays?_weekday_eq hstart hlo (by omega), hstop, hrest⟩
  | monthly =>
    obtain ⟨hstop, hprev, hstart, hprevStop, hlabel⟩ := monthly_eq_ok.1 h
    have hmonth : monthStart other = monthStart anchor :=
      monthStart_eq_of_mem hstop (hstart ▸ hlo) hhi
    obtain ⟨hy, hm⟩ := monthStart_eq_iff.1 hmonth
    refine monthly_eq_ok.2 ⟨?_, hmonth ▸ hprev, hmonth ▸ hstart, hmonth ▸ hprevStop, ?_⟩
    · rw [← hstop, nextMonth?, nextMonth?, hy, hm]
    · rw [hlabel, monthName, monthName, yearText, yearText, hy, hm]

theorem day_of_nextMonth? {d e : Date} (h : nextMonth? d = some e) : monthStart e = e := by
  have hday := (nextMonth?_eq_some.1 h).1
  exact Date.ext rfl rfl hday.symm

theorem day_of_lastMonth? {d e : Date} (h : lastMonth? d = some e) : monthStart e = e := by
  have hday := (lastMonth?_eq_some.1 h).1
  exact Date.ext rfl rfl hday.symm

/-- The next period starts where this one stops, and has this one before it. -/
theorem next_period (h : periodBounds period anchor = .ok b) {b' : Bounds}
    (h' : periodBounds period b.stop = .ok b') :
    b'.start = b.stop ∧ b'.prevStart = b.start := by
  cases period with
  | daily =>
    obtain ⟨hstop, -, hstart, -⟩ := daily_eq_ok.1 h
    obtain ⟨-, hprev', hstart', -⟩ := daily_eq_ok.1 h'
    have hordinal := ordinal_plusDays? hstop
    have hordinal' := ordinal_minusDays? hprev'
    refine ⟨hstart', ?_⟩
    rw [hstart]
    exact ordinal_injective (by omega)
  | weekly =>
    obtain ⟨hstart, hstop, -⟩ := weekly_eq_ok.1 h
    obtain ⟨hstart', -, hprev', -⟩ := weekly_eq_ok.1 h'
    have hmonday := ordinal_minusDays? hstart
    have hordinal := ordinal_plusDays? hstop
    have hmonday' := ordinal_minusDays? hstart'
    have hordinal' := ordinal_minusDays? hprev'
    have hweekday : weekday anchor = (anchor.ordinal + 6) % 7 := rfl
    have hweekday' : weekday b.stop = (b.stop.ordinal + 6) % 7 := rfl
    exact ⟨ordinal_injective (by omega), ordinal_injective (by omega)⟩
  | monthly =>
    obtain ⟨hstop, -, hstart, -⟩ := monthly_eq_ok.1 h
    obtain ⟨-, hprev', hstart', -⟩ := monthly_eq_ok.1 h'
    rw [day_of_nextMonth? hstop] at hprev' hstart'
    have hback := lastMonth?_of_nextMonth? hstop
    rw [hprev', Option.some.injEq] at hback
    exact ⟨hstart', hback.trans hstart.symm⟩

/-- The period before starts at `prev_start`, and stops where this one starts. -/
theorem prev_period (h : periodBounds period anchor = .ok b) {b' : Bounds}
    (h' : periodBounds period b.prevStart = .ok b') :
    b'.start = b.prevStart ∧ b'.stop = b.start := by
  cases period with
  | daily =>
    obtain ⟨-, hprev, hstart, -⟩ := daily_eq_ok.1 h
    obtain ⟨hstop', -, hstart', -⟩ := daily_eq_ok.1 h'
    have hordinal := ordinal_minusDays? hprev
    have hordinal' := ordinal_plusDays? hstop'
    refine ⟨hstart', ?_⟩
    rw [hstart]
    exact ordinal_injective (by omega)
  | weekly =>
    obtain ⟨hstart, -, hprev, -⟩ := weekly_eq_ok.1 h
    obtain ⟨hstart', hstop', -⟩ := weekly_eq_ok.1 h'
    have hmonday := ordinal_minusDays? hstart
    have hordinal := ordinal_minusDays? hprev
    have hmonday' := ordinal_minusDays? hstart'
    have hordinal' := ordinal_plusDays? hstop'
    have hweekday : weekday anchor = (anchor.ordinal + 6) % 7 := rfl
    have hweekday' : weekday b.prevStart = (b.prevStart.ordinal + 6) % 7 := rfl
    exact ⟨ordinal_injective (by omega), ordinal_injective (by omega)⟩
  | monthly =>
    obtain ⟨-, hprev, hstart, -⟩ := monthly_eq_ok.1 h
    obtain ⟨hstop', -, hstart', -⟩ := monthly_eq_ok.1 h'
    rw [day_of_lastMonth? hprev] at hstart'
    have hforth := nextMonth?_of_lastMonth? hprev
    rw [hstop', Option.some.injEq] at hforth
    exact ⟨hstart', hforth.trans hstart.symm⟩

end Periods

/-! ## The buckets cut a period -/

section Buckets

variable {period : Period} {anchor : Date} {b : Bounds}

theorem midnight_lt_midnight {d e : Date} : midnight d < midnight e ↔ d < e :=
  Nat.mul_lt_mul_right (by decide)

/-- The days from one date to another follow one another. -/
theorem tiles_days {cur stop : Date} (h : cur ≤ stop) :
    Tiles (midnight cur) (midnight stop)
      ((daysUntil cur stop).map fun d => (midnight d, midnight d + day)) := by
  have hle : cur.ordinal ≤ stop.ordinal := h
  fun_induction daysUntil cur stop with
  | case1 cur hlt nxt hnext ih =>
    have hordinal := ordinal_next? hnext
    have hlt' : cur.ordinal < stop.ordinal := hlt
    have hmidnight : midnight cur + day = midnight nxt := by
      rw [midnight, midnight, hordinal, Nat.succ_mul]
    rw [List.map_cons, hmidnight]
    refine Tiles.cons ?_ (ih (show nxt.ordinal ≤ stop.ordinal by omega) (by omega))
    rw [midnight_lt_midnight]
    exact show cur.ordinal < nxt.ordinal by omega
  | case2 cur hlt hnone =>
    -- a date before another is not the last one
    have hlast := next?_eq_none.1 hnone
    have hmax := ordinal_le_max stop
    have hlt' : cur.ordinal < stop.ordinal := hlt
    omega
  | case3 cur hge =>
    have hge' : ¬ cur.ordinal < stop.ordinal := hge
    rw [ordinal_injective (show cur.ordinal = stop.ordinal by omega)]
    exact Tiles.nil _

/-- The buckets of a period follow one another from its start to its end. -/
theorem tiles_spans (h : periodBounds period anchor = .ok b) :
    Tiles (midnight b.start) (midnight b.stop) (spans period b.start b.stop) := by
  cases period with
  | daily =>
    obtain ⟨hstop, -, hstart, -⟩ := daily_eq_ok.1 h
    have hordinal := ordinal_plusDays? hstop
    have hmidnight : midnight b.stop = midnight b.start + 6 * (4 * hour) := by
      rw [hstart, midnight, midnight, hordinal, Nat.add_mul]
      rfl
    rw [hmidnight]
    exact tiles_range _ (by decide) 6
  | weekly =>
    obtain ⟨-, hstop, -⟩ := weekly_eq_ok.1 h
    have hordinal := ordinal_plusDays? hstop
    have hmidnight : midnight b.stop = midnight b.start + 7 * day := by
      rw [midnight, midnight, hordinal, Nat.add_mul]
    rw [hmidnight]
    exact tiles_range _ (by decide) 7
  | monthly =>
    obtain ⟨hlo, hhi⟩ := start_le_lt_stop h
    exact tiles_days (le_of_lt (show b.start.ordinal < b.stop.ordinal from
      lt_of_le_of_lt (show b.start.ordinal ≤ anchor.ordinal from hlo) hhi))

/-- A bucket has the amount of its span. -/
theorem amounts_eq (period : Period) (start stop : Date) (orders : List Order) :
    (bucketSeries period start stop orders).map Bucket.amount =
      (spans period start stop).map (amountBetween (sales orders)) := by
  cases period with
  | daily =>
    rw [bucketSeries, spans, List.map_map, List.map_map]
    rfl
  | weekly =>
    rw [bucketSeries, spans, List.map_map, List.map_map]
    rfl
  | monthly =>
    rw [bucketSeries, spans, List.map_map, List.map_map]
    rfl

theorem mem_sales {o : Order} {orders : List Order} :
    o ∈ sales orders ↔ o ∈ orders ∧ isSale o :=
  List.mem_filter

/-- The amounts of the buckets add up to the sales. -/
theorem sum_amounts (h : periodBounds period anchor = .ok b) {orders : List Order}
    (hin : ∀ o ∈ orders, Within (midnight b.start, midnight b.stop) o.createdAt)
    (hcents : ∀ o ∈ orders, IsCents o.finalAmount) :
    ((bucketSeries period b.start b.stop orders).map Bucket.amount).sum = totalSales orders := by
  have hsales : ∀ o ∈ sales orders, IsCents o.finalAmount := fun o ho =>
    hcents o (mem_sales.1 ho).1
  -- no amount is rounded
  have hexact : ∀ span, amountBetween (sales orders) span =
      sumWithin Order.createdAt Order.finalAmount (sales orders) span := by
    intro span
    refine round2_of_isCents (isCents_sum fun x hx => ?_)
    obtain ⟨o, ho, rfl⟩ := List.mem_map.1 hx
    exact hsales o (List.mem_filter.1 ho).1
  have htotal : totalSales orders = ((sales orders).map Order.finalAmount).sum := by
    refine round2_of_isCents (isCents_sum fun x hx => ?_)
    obtain ⟨o, ho, rfl⟩ := List.mem_map.1 hx
    exact hsales o ho
  calc ((bucketSeries period b.start b.stop orders).map Bucket.amount).sum
      = ((spans period b.start b.stop).map
          (sumWithin Order.createdAt Order.finalAmount (sales orders))).sum := by
        rw [amounts_eq, List.map_congr_left fun span _ => hexact span]
    _ = sumWithin Order.createdAt Order.finalAmount (sales orders)
          (midnight b.start, midnight b.stop) := (tiles_spans h).sum_map_sum _ _ _
    _ = totalSales orders := by
        rw [htotal]
        exact sumWithin_eq_sum fun o ho => hin o (mem_sales.1 ho).1

/-- The orders between two times were created between them. -/
theorem mem_ordersBetween {orders : Table Order} {u start stop : ℕ} {o : Order}
    (h : o ∈ ordersBetween orders u start stop) :
    (∃ i, (i, o) ∈ orders.rows) ∧ o.shopUserId = some u ∧ Within (start, stop) o.createdAt := by
  rw [ordersBetween, List.mem_insertionSort, List.mem_map] at h
  obtain ⟨⟨i, o'⟩, hmem, rfl⟩ := h
  obtain ⟨hrow, hsel⟩ := List.mem_filter.1 hmem
  obtain ⟨hshop, hlo, hhi⟩ := of_decide_eq_true hsel
  exact ⟨⟨i, hrow⟩, hshop, hlo, hhi⟩

end Buckets

/-! ## The whole -/

/-- The period contains its date and abuts the periods beside it; its buckets cut it, and their
amounts are those of its sales. -/
structure TilesTime (period : Period) (anchor : Date) (b : Bounds) : Prop where
  contains : b.start ≤ anchor ∧ anchor < b.stop
  before : b.prevStop = b.start
  same : ∀ other, b.start ≤ other → other < b.stop → periodBounds period other = .ok b
  next : ∀ b', periodBounds period b.stop = .ok b' → b'.start = b.stop ∧ b'.prevStart = b.start
  prev : ∀ b', periodBounds period b.prevStart = .ok b' →
    b'.start = b.prevStart ∧ b'.stop = b.start
  buckets : ∀ orders : List Order, (bucketSeries period b.start b.stop orders).map Bucket.amount =
    (spans period b.start b.stop).map (amountBetween (sales orders))
  once : ∀ orders : List Order,
    (∀ o ∈ orders, Within (midnight b.start, midnight b.stop) o.createdAt) →
    ∀ o ∈ sales orders, (spans period b.start b.stop).countP (fun s => Within s o.createdAt) = 1
  total : ∀ orders : List Order,
    (∀ o ∈ orders, Within (midnight b.start, midnight b.stop) o.createdAt) →
    (∀ o ∈ orders, IsCents o.finalAmount) →
    ((bucketSeries period b.start b.stop orders).map Bucket.amount).sum = totalSales orders
  shop : ∀ (orders : Table Order) (u : ℕ),
    (orders.All fun o => IsCents o.finalAmount) →
    let own := ordersBetween orders u (midnight b.start) (midnight b.stop)
    ((bucketSeries period b.start b.stop own).map Bucket.amount).sum = totalSales own

/-- A period has bounds when the calendar suffices, and then the periods abut and the buckets cut
each of them. -/
theorem periodBounds_tilesTime :
    (∀ period anchor, (∃ b, periodBounds period anchor = .ok b) ↔ InCalendar period anchor) ∧
      ∀ period anchor b, periodBounds period anchor = .ok b → TilesTime period anchor b := by
  refine ⟨exists_bounds_iff, fun period anchor b h => ?_⟩
  constructor
  case contains => exact start_le_lt_stop h
  case before => exact prevStop_eq h
  case same => exact fun other hlo hhi => periodBounds_eq_of_mem h hlo hhi
  case next => exact fun b' h' => next_period h h'
  case prev => exact fun b' h' => prev_period h h'
  case buckets => exact amounts_eq period b.start b.stop
  case once => exact fun orders hin o ho => (tiles_spans h).countP_eq_one (hin o (mem_sales.1 ho).1)
  case total => exact fun orders hin hcents => sum_amounts h hin hcents
  case shop =>
    intro orders u hcents
    refine sum_amounts h (fun o ho => (mem_ordersBetween ho).2.2) fun o ho => ?_
    obtain ⟨i, hi⟩ := (mem_ordersBetween ho).1
    exact hcents (i, o) hi

/-- 29 February 2024. -/
def leapDay : Date := ⟨2024, 2, 29, by decide, by decide, by decide⟩

/-- The February of a leap year. -/
theorem leapDay_tilesTime : InCalendar .monthly leapDay ∧
    ∃ b, periodBounds .monthly leapDay = .ok b ∧ TilesTime .monthly leapDay b := by
  have hin : InCalendar .monthly leapDay := by decide
  obtain ⟨b, hb⟩ := (periodBounds_tilesTime.1 .monthly leapDay).2 hin
  exact ⟨hin, b, hb, periodBounds_tilesTime.2 .monthly leapDay b hb⟩

/-- The last day has no day after it to end at. -/
theorem lastDate_unbounded :
    periodBounds .daily lastDate = .error (.uncaught "date value out of range") ∧
      ¬ ∀ period anchor, ∃ b, periodBounds period anchor = .ok b ∧ TilesTime period anchor b := by
  have hlast : periodBounds .daily lastDate = .error (.uncaught "date value out of range") := rfl
  refine ⟨hlast, fun h => ?_⟩
  obtain ⟨b, hb, -⟩ := h .daily lastDate
  rw [hlast] at hb
  cases hb

end Analytics

end SweetCrust

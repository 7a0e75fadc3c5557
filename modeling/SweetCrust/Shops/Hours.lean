import SweetCrust.Lib.Decimal

/-!
# The opening hours of a shop

`shop_hours.py`: a shop has a time at which it opens, one at which it closes, and a list of days,
all three as texts, and is open or not at an instant of Indian time.

* `parseHhmm`, `dayAllowed`, `isWithinShopHours` — the functions of the file.
* `Session`, `ownSession` — the hours from opening to closing, as one session that may run past
  midnight, and as the code has them, which ask for the day of the instant itself.
* `isWithinShopHours_iff` — the code has the second kind, and that is the first kind exactly for
  shops that do not open over midnight or are open every day.
-/

namespace SweetCrust

open Text Decimal

namespace ShopHours

/-! ## Times of a day -/

/-- `time(h, m)`. -/
structure Clock where
  hour : ℕ
  minute : ℕ
  hour_lt : hour < 24
  minute_lt : minute < 60
  deriving DecidableEq

/-- `time(h, m)`, when there is one. -/
def clock? (h m : ℤ) : Option Clock :=
  if hin : (0 ≤ h ∧ h ≤ 23) ∧ 0 ≤ m ∧ m ≤ 59 then
    some ⟨h.toNat, m.toNat, by omega, by omega⟩
  else none

/-- `parse_hhmm`. -/
def parseHhmm (raw : Option String) (default : Clock) : Clock :=
  let s := strip isSpace (raw.getD "").toList
  if s = [] then default
  else
    let parts := (replaceChar '.' ':' s).splitOn ':'
    let time? := do
      let h ← parseInt (parts.headD [])
      let m ← match parts[1]? with
        | some part => parseInt part
        | none => some 0
      clock? h m
    time?.getD default

/-- `f"{h:02d}:{m:02d}"`. -/
def Clock.text (t : Clock) : String :=
  String.ofList (twoDigits t.hour ++ ':' :: twoDigits t.minute)

/-- A minute, in microseconds. -/
def minuteLong : ℤ := 60000000

/-- A day, in microseconds. -/
def dayLong : ℤ := 86400000000

/-- The time since midnight. -/
def Clock.time (t : Clock) : ℤ := (60 * t.hour + t.minute) * minuteLong

def nine : Clock := ⟨9, 0, by decide, by decide⟩

def twentyOne : Clock := ⟨21, 0, by decide, by decide⟩

/-! ## Lists of days -/

/-- `_DAY_ALIASES`. -/
def dayAliases : List (String × ℕ) :=
  [("mon", 0), ("monday", 0), ("tue", 1), ("tues", 1), ("tuesday", 1), ("wed", 2),
    ("wednesday", 2), ("thu", 3), ("thur", 3), ("thurs", 3), ("thursday", 3), ("fri", 4),
    ("friday", 4), ("sat", 5), ("saturday", 5), ("sun", 6), ("sunday", 6)]

/-- `_DAY_ALIASES.get(name)`. -/
def dayAlias (name : List Char) : Option ℕ := dayAliases.lookup (String.ofList name)

/-- `raw.lower().replace(" ", "")`. -/
def dayKey (raw : List Char) : List Char := (lower raw).filter fun c => c ≠ ' '

def everyDay : List String := ["mon-sun", "daily", "all", "everyday", "alldays"]

/-- The ends of a range like `Mon-Fri`. -/
def dayRange (key : List Char) : Option (ℕ × ℕ) :=
  if '-' ∈ key ∧ ',' ∉ key then do
    let ends ← splitAt? '-' key
    let first ← dayAlias ends.1
    let last ← dayAlias ends.2
    return (first, last)
  else none

/-- The days of a range, which may run over the end of the week. -/
def InRange (ends : ℕ × ℕ) (weekday : ℕ) : Prop :=
  if ends.1 ≤ ends.2 then ends.1 ≤ weekday ∧ weekday ≤ ends.2
  else ends.1 ≤ weekday ∨ weekday ≤ ends.2

instance (ends : ℕ × ℕ) (weekday : ℕ) : Decidable (InRange ends weekday) :=
  inferInstanceAs (Decidable (if ends.1 ≤ ends.2 then _ ∧ _ else _ ∨ _))

/-- The days of a list of tokens. -/
def listedDays (key : List Char) : List ℕ :=
  (((replaceChar '/' ',' key).splitOn ',').filter fun t => t ≠ []).filterMap dayAlias

/-- What `_day_allowed` says of a text that is not empty. -/
def KeyAllowed (key : List Char) (weekday : ℕ) : Prop :=
  if String.ofList key ∈ everyDay then True
  else
    match dayRange key with
    | some ends => InRange ends weekday
    | none => listedDays key = [] ∨ weekday ∈ listedDays key

instance (key : List Char) (weekday : ℕ) : Decidable (KeyAllowed key weekday) :=
  if hevery : String.ofList key ∈ everyDay then .isTrue (by simp [KeyAllowed, hevery])
  else
    match hends : dayRange key with
    | some ends => decidable_of_iff (InRange ends weekday) (by simp [KeyAllowed, hevery, hends])
    | none =>
      decidable_of_iff (listedDays key = [] ∨ weekday ∈ listedDays key)
        (by simp [KeyAllowed, hevery, hends])

/-- `_day_allowed`. -/
def DayAllowed (shopDays : Option String) (weekday : ℕ) : Prop :=
  let raw := strip isSpace (shopDays.getD "").toList
  if raw = [] then True else KeyAllowed (dayKey raw) weekday

instance (shopDays : Option String) (weekday : ℕ) : Decidable (DayAllowed shopDays weekday) :=
  inferInstanceAs (Decidable (if strip isSpace (shopDays.getD "").toList = [] then True else
    KeyAllowed (dayKey (strip isSpace (shopDays.getD "").toList)) weekday))

/-! ## Open or closed -/

/-- A time as it is given: without a zone, or as an instant since 1970. -/
inductive DateTime
  | naive (wall : ℤ)
  | aware (instant : ℤ)

/-- The time on the wall in `SHOP_TZ`, since midnight of the first day of 1970: `utcoffset` is how
far the zone is ahead at an instant, and `clock` what `datetime.now` reads. -/
def wallTime (utcoffset : ℤ → ℤ) (clock : ℤ) : Option DateTime → ℤ
  | some (.naive wall) => wall
  | some (.aware instant) => instant + utcoffset instant
  | none => clock + utcoffset clock

/-- `weekday()` of the days since the first of 1970, a Thursday. -/
def weekdayOf (day : ℤ) : ℕ := ((day + 3) % 7).toNat

/-- `is_within_shop_hours`. -/
def IsWithinShopHours (utcoffset : ℤ → ℤ) (clock : ℤ)
    (shopOpenTime shopCloseTime shopDays : Option String) (now : Option DateTime) : Prop :=
  let now := wallTime utcoffset clock now
  if ¬ DayAllowed shopDays (weekdayOf (now / dayLong)) then False
  else
    let openT := (parseHhmm shopOpenTime nine).time
    let closeT := (parseHhmm shopCloseTime twentyOne).time
    let cur := now % dayLong
    if openT = closeT then True
    else if openT < closeT then openT ≤ cur ∧ cur < closeT
    -- over midnight, for example 22:00 to 06:00
    else openT ≤ cur ∨ cur < closeT

instance (utcoffset : ℤ → ℤ) (clock : ℤ) (shopOpenTime shopCloseTime shopDays : Option String)
    (now : Option DateTime) :
    Decidable (IsWithinShopHours utcoffset clock shopOpenTime shopCloseTime shopDays now) := by
  unfold IsWithinShopHours
  infer_instance

/-- In Indian time, five and a half hours ahead: the shop closes at 21:00 sharp. -/
example : IsWithinShopHours (fun _ => 19800000000) 0 (some "09:00") (some "21:00") (some "Mon-Sun")
      (some (.aware 1784647799000000)) ∧
    ¬ IsWithinShopHours (fun _ => 19800000000) 0 (some "09:00") (some "21:00") (some "Mon-Sun")
      (some (.aware 1784647800000000)) := by decide +kernel

/-! ## Sessions -/

/-- The session that starts on a day: from opening to closing, on the next day if the shop closes
earlier than it opens, and all day if it opens and closes at one time. -/
def session (o c : Clock) (day : ℤ) : ℤ × ℤ :=
  if o.time = c.time then (day * dayLong, (day + 1) * dayLong)
  else if o.time < c.time then (day * dayLong + o.time, day * dayLong + c.time)
  else (day * dayLong + o.time, (day + 1) * dayLong + c.time)

/-- A time of a session that starts on an allowed day. -/
def InSession (allowed : ℕ → Prop) (o c : Clock) (wall : ℤ) : Prop :=
  ∃ day, allowed (weekdayOf day) ∧ (session o c day).1 ≤ wall ∧ wall < (session o c day).2

/-- The hours of a day that are the day's own: of a session over midnight, the hours before closing
and the hours from opening, both of the same day. -/
def ownSessions (o c : Clock) (day : ℤ) : List (ℤ × ℤ) :=
  if c.time < o.time then
    [(day * dayLong, day * dayLong + c.time), (day * dayLong + o.time, (day + 1) * dayLong)]
  else [session o c day]

/-- A time of the own hours of an allowed day. -/
def InOwnSession (allowed : ℕ → Prop) (o c : Clock) (wall : ℤ) : Prop :=
  ∃ day, allowed (weekdayOf day) ∧ ∃ s ∈ ownSessions o c day, s.1 ≤ wall ∧ wall < s.2

/-! ## The texts of times -/

theorem clock?_time (t : Clock) : clock? t.hour t.minute = some t := by
  obtain ⟨h, m, hh, hm⟩ := t
  unfold clock?
  rw [dif_pos (by simp only; omega)]
  simp

theorem parseInt_twoDigits {k : ℕ} (h : k < 100) : parseInt (twoDigits k) = some (k : ℤ) := by
  rw [parseInt_of_digits (by simp [twoDigits]) fun c hc => isDigit_of_mem_twoDigits hc,
    ofDigitChars_twoDigits h]
  simp

/-- A time is read back from its text. -/
theorem parseHhmm_text (t default : Clock) : parseHhmm (some t.text) default = t := by
  have hkept : ∀ c ∈ twoDigits t.hour ++ ':' :: twoDigits t.minute, c.isDigit = true ∨ c = ':' := by
    intro c hc
    simp only [List.mem_append, List.mem_cons] at hc
    rcases hc with hc | rfl | hc
    · exact Or.inl (isDigit_of_mem_twoDigits hc)
    · exact Or.inr rfl
    · exact Or.inl (isDigit_of_mem_twoDigits hc)
  have hcolon : ∀ k, ':' ∉ twoDigits k := fun k hc =>
    absurd (isDigit_of_mem_twoDigits hc) (by decide)
  have hstrip : strip isSpace t.text.toList = twoDigits t.hour ++ ':' :: twoDigits t.minute := by
    rw [Clock.text, String.toList_ofList]
    refine strip_eq_self fun c hc => ?_
    rcases hkept c hc with hdigit | rfl
    · exact isSpace_of_isDigit hdigit
    · decide
  have hdot : replaceChar '.' ':' (twoDigits t.hour ++ ':' :: twoDigits t.minute) =
      twoDigits t.hour ++ ':' :: twoDigits t.minute := by
    refine (List.map_congr_left fun c hc => ?_).trans (List.map_id _)
    rcases hkept c hc with hdigit | rfl
    · exact if_neg (ne_of_isDigit hdigit (by decide))
    · rfl
  have hsplit : (twoDigits t.hour ++ ':' :: twoDigits t.minute).splitOn ':' =
      [twoDigits t.hour, twoDigits t.minute] := by
    rw [List.splitOn_append_cons_self, List.splitOn_eq_singleton (hcolon _),
      List.splitOn_eq_singleton (hcolon _)]
    rfl
  have hh := t.hour_lt
  have hm := t.minute_lt
  unfold parseHhmm
  simp only [Option.getD_some, hstrip, hdot, hsplit]
  rw [if_neg (by simp)]
  simp only [List.headD_cons, List.getElem?_cons_succ, List.getElem?_cons_zero]
  rw [parseInt_twoDigits (by omega), parseInt_twoDigits (by omega)]
  simp only [Option.bind_eq_bind, Option.bind_some, clock?_time, Option.getD_some]

/-! ## The days of a week -/

theorem dayAlias_mem {name : List Char} {w : ℕ} (h : dayAlias name = some w) :
    (String.ofList name, w) ∈ dayAliases := by
  obtain ⟨l₁, l₂, heq, -⟩ := List.lookup_eq_some_iff.1 h
  rw [heq]
  simp

theorem dayAlias_lt {name : List Char} {w : ℕ} (h : dayAlias name = some w) : w < 7 := by
  have hall : ∀ d ∈ dayAliases, d.2 < 7 := by decide
  exact hall _ (dayAlias_mem h)

theorem lt_of_mem_listedDays {key : List Char} {w : ℕ} (h : w ∈ listedDays key) : w < 7 := by
  obtain ⟨name, -, hname⟩ := List.mem_filterMap.1 h
  exact dayAlias_lt hname

theorem dayRange_lt {key : List Char} {ends : ℕ × ℕ} (h : dayRange key = some ends) :
    ends.1 < 7 ∧ ends.2 < 7 := by
  unfold dayRange at h
  split_ifs at h
  simp only [Option.bind_eq_bind, Option.bind_eq_some_iff, Option.pure_def, Option.some.injEq] at h
  obtain ⟨_, -, first, hfirst, last, hlast, rfl⟩ := h
  exact ⟨dayAlias_lt hfirst, dayAlias_lt hlast⟩

/-- Every list of days allows a day. -/
theorem exists_dayAllowed (shopDays : Option String) : ∃ w < 7, DayAllowed shopDays w := by
  simp only [DayAllowed]
  split_ifs
  · exact ⟨0, by omega, trivial⟩
  unfold KeyAllowed
  split_ifs
  · exact ⟨0, by omega, trivial⟩
  split
  · rename_i ends hends
    refine ⟨ends.1, (dayRange_lt hends).1, ?_⟩
    unfold InRange
    split_ifs with hle
    · exact ⟨le_rfl, hle⟩
    · exact Or.inl le_rfl
  · cases hdays : listedDays (dayKey (strip isSpace (shopDays.getD "").toList)) with
    | nil => exact ⟨0, by omega, Or.inl rfl⟩
    | cons w ws =>
      have hmem : w ∈ w :: ws := List.mem_cons_self
      exact ⟨w, lt_of_mem_listedDays (hdays ▸ hmem), Or.inr hmem⟩

/-- A set of weekdays that has one, and with each the next, has all. -/
theorem allowed_of_next {allowed : ℕ → Prop} (hsome : ∃ w < 7, allowed w)
    (hnext : ∀ day, allowed (weekdayOf day) → allowed (weekdayOf (day + 1))) :
    ∀ w < 7, allowed w := by
  obtain ⟨first, hlt, hfirst⟩ := hsome
  have hreach : ∀ n : ℕ, allowed (weekdayOf (first - 3 + n)) := by
    intro n
    induction n with
    | zero =>
      have hday : weekdayOf (first - 3 + (0 : ℕ)) = first := by
        unfold weekdayOf
        omega
      rw [hday]
      exact hfirst
    | succ n ih =>
      have hday : ((first : ℤ) - 3 + (n + 1 : ℕ)) = first - 3 + n + 1 := by omega
      rw [hday]
      exact hnext _ ih
  intro w hw
  have hday : weekdayOf (first - 3 + (w + 7 - first : ℕ)) = w := by
    unfold weekdayOf
    omega
  rw [← hday]
  exact hreach _

/-! ## Open is in a session -/

theorem time_nonneg (t : Clock) : 0 ≤ t.time := by
  unfold Clock.time minuteLong
  omega

theorem time_lt (t : Clock) : t.time < dayLong := by
  have hh := t.hour_lt
  have hm := t.minute_lt
  unfold Clock.time minuteLong dayLong
  omega

section Sessions

variable {allowed : ℕ → Prop} {o c : Clock} {wall : ℤ}

/-- A day is found again from any time of it. -/
theorem day_eq {day : ℤ} (h : day * dayLong ≤ wall) (hlt : wall < (day + 1) * dayLong) :
    day = wall / dayLong := by
  unfold dayLong at *
  omega

/-- The own hours of a day are in the day. -/
theorem ownSessions_within {day : ℤ} {s : ℤ × ℤ} (h : s ∈ ownSessions o c day) :
    day * dayLong ≤ s.1 ∧ s.2 ≤ (day + 1) * dayLong := by
  have ho := time_nonneg o
  have hc := time_lt c
  have hlong : (day + 1) * dayLong = day * dayLong + dayLong := by ring
  unfold ownSessions session at h
  split_ifs at h
  · simp only [List.mem_cons, List.not_mem_nil, or_false] at h
    rcases h with rfl | rfl
    · exact ⟨le_rfl, by simp only; omega⟩
    · exact ⟨by simp only; omega, le_rfl⟩
  · rw [List.mem_singleton.1 h]
    exact ⟨le_rfl, le_rfl⟩
  · rw [List.mem_singleton.1 h]
    exact ⟨by simp only; omega, by simp only; omega⟩
  · omega

/-- The clock says whether a time is in the own hours of its day. -/
theorem exists_ownSession_iff :
    (∃ s ∈ ownSessions o c (wall / dayLong), s.1 ≤ wall ∧ wall < s.2) ↔
      (o.time = c.time ∨ o.time < c.time ∧ o.time ≤ wall % dayLong ∧ wall % dayLong < c.time ∨
        c.time < o.time ∧ (o.time ≤ wall % dayLong ∨ wall % dayLong < c.time)) := by
  have hwall := Int.ediv_mul_add_emod wall dayLong
  have hnonneg : 0 ≤ wall % dayLong := Int.emod_nonneg wall (by decide)
  have hlt : wall % dayLong < dayLong := Int.emod_lt_of_pos wall (by decide)
  have hnext : (wall / dayLong + 1) * dayLong = wall / dayLong * dayLong + dayLong := by ring
  unfold ownSessions session
  rw [hnext]
  generalize wall / dayLong * dayLong = midnight at *
  generalize wall % dayLong = cur at *
  rcases lt_trichotomy o.time c.time with h | h | h
  · simp only [if_neg h.asymm, if_neg h.ne, if_pos h, List.mem_singleton, exists_eq_left]
    omega
  · simp only [h, lt_irrefl, if_true, if_false, List.mem_singleton, exists_eq_left, true_or,
      iff_true]
    omega
  · simp only [if_pos h, List.mem_cons, List.not_mem_nil, or_false, exists_eq_or_imp,
      exists_eq_left]
    omega

/-- A time is in the own hours of an allowed day if its day is allowed and the clock says so. -/
theorem inOwnSession_iff :
    InOwnSession allowed o c wall ↔ allowed (weekdayOf (wall / dayLong)) ∧
      ∃ s ∈ ownSessions o c (wall / dayLong), s.1 ≤ wall ∧ wall < s.2 := by
  constructor
  · rintro ⟨day, hallowed, s, hs, hle, hlt⟩
    obtain ⟨hstart, hend⟩ := ownSessions_within hs
    obtain rfl := day_eq (hstart.trans hle) (hlt.trans_le hend)
    exact ⟨hallowed, s, hs, hle, hlt⟩
  · rintro ⟨hallowed, hs⟩
    exact ⟨_, hallowed, hs⟩

theorem inSession_iff_of_le (h : o.time ≤ c.time) :
    InSession allowed o c wall ↔ InOwnSession allowed o c wall := by
  simp only [InSession, InOwnSession, ownSessions, if_neg (not_lt.2 h), List.mem_singleton,
    exists_eq_left]

/-- A time is in a session over midnight if it is late on an allowed day, or early on the day
after one. -/
theorem inSession_iff_of_lt (h : c.time < o.time) :
    InSession allowed o c wall ↔
      allowed (weekdayOf (wall / dayLong)) ∧ o.time ≤ wall % dayLong ∨
        allowed (weekdayOf (wall / dayLong - 1)) ∧ wall % dayLong < c.time := by
  have hwall := Int.ediv_mul_add_emod wall dayLong
  have hnonneg : 0 ≤ wall % dayLong := Int.emod_nonneg wall (by decide)
  have hlt : wall % dayLong < dayLong := Int.emod_lt_of_pos wall (by decide)
  have ho := time_nonneg o
  have hc := time_nonneg c
  have ho' := time_lt o
  have hc' := time_lt c
  simp only [InSession, session, if_neg h.ne', if_neg h.asymm]
  constructor
  · rintro ⟨day, hallowed, hstart, hend⟩
    rcases lt_or_ge wall ((day + 1) * dayLong) with hsame | hnext
    · obtain rfl := day_eq (le_trans (by omega) hstart) hsame
      exact Or.inl ⟨hallowed, by omega⟩
    · have hday : day + 1 = wall / dayLong := by
        refine day_eq hnext (hend.trans ?_)
        rw [add_mul (day + 1)]
        omega
      obtain rfl : day = wall / dayLong - 1 := by omega
      rw [hday] at hend
      exact Or.inr ⟨hallowed, by omega⟩
  · rintro (⟨hallowed, hlate⟩ | ⟨hallowed, hearly⟩)
    · refine ⟨_, hallowed, by omega, ?_⟩
      rw [add_mul]
      omega
    · refine ⟨_, hallowed, ?_, ?_⟩
      · rw [sub_mul]
        omega
      · rw [sub_add_cancel]
        omega

/-- Both kinds of sessions are one for shops that close by midnight or open every day, and for no
others. -/
theorem inSession_iff_inOwnSession_iff (hsome : ∃ w < 7, allowed w) :
    (∀ wall, InOwnSession allowed o c wall ↔ InSession allowed o c wall) ↔
      o.time ≤ c.time ∨ c.time = 0 ∨ ∀ w < 7, allowed w := by
  have hc := time_nonneg c
  constructor
  · intro h
    by_contra hnot
    simp only [not_or, not_le] at hnot
    obtain ⟨hlt, hopen, hall⟩ := hnot
    refine hall (allowed_of_next hsome fun day hday => ?_)
    -- midnight after an allowed day is in the session of that day
    have hmidnight : InSession allowed o c ((day + 1) * dayLong) := by
      rw [inSession_iff_of_lt hlt, Int.mul_ediv_cancel _ (by decide), Int.mul_emod_left,
        add_sub_cancel_right]
      exact Or.inr ⟨hday, by omega⟩
    have hown := inOwnSession_iff.1 ((h _).2 hmidnight)
    rw [Int.mul_ediv_cancel _ (by decide)] at hown
    exact hown.1
  · intro h wall
    rcases le_or_gt o.time c.time with hle | hlt
    · exact (inSession_iff_of_le hle).symm
    rw [inOwnSession_iff, exists_ownSession_iff, inSession_iff_of_lt hlt]
    have hlate : ¬ o.time = c.time ∧ ¬ o.time < c.time := ⟨by omega, by omega⟩
    simp only [hlate, hlt, false_and, true_and, false_or, and_or_left]
    rcases h.resolve_left (by omega) with hzero | hall
    · have hnonneg : 0 ≤ wall % dayLong := Int.emod_nonneg wall (by decide)
      have hearly : ¬ wall % dayLong < c.time := by omega
      simp only [hearly, and_false]
    · have hday : ∀ day, allowed (weekdayOf day) := by
        intro day
        refine hall _ ?_
        unfold weekdayOf
        omega
      simp only [hday]

end Sessions

section Open

variable (utcoffset : ℤ → ℤ) (clock : ℤ)

theorem isWithinShopHours_iff_inOwnSession (shopOpenTime shopCloseTime shopDays : Option String)
    (now : Option DateTime) :
    IsWithinShopHours utcoffset clock shopOpenTime shopCloseTime shopDays now ↔
      InOwnSession (DayAllowed shopDays) (parseHhmm shopOpenTime nine)
        (parseHhmm shopCloseTime twentyOne) (wallTime utcoffset clock now) := by
  rw [inOwnSession_iff, exists_ownSession_iff]
  simp only [IsWithinShopHours]
  by_cases hday : DayAllowed shopDays (weekdayOf (wallTime utcoffset clock now / dayLong))
  · simp only [hday, not_true, if_false, true_and]
    rcases lt_trichotomy (parseHhmm shopOpenTime nine).time
        (parseHhmm shopCloseTime twentyOne).time with h | h | h
    · simp only [h.ne, h, h.asymm, if_true, if_false, true_and, false_or, false_and, or_false]
    · simp only [h, if_true, true_or]
    · simp only [h.ne', h, h.asymm, if_false, true_and, false_or, false_and]
  · simp only [hday, not_false_eq_true, if_true, false_and]

/-- A shop is open exactly in the own hours of its days; these are the sessions that start on its
days, at every moment, exactly if the shop closes by midnight or is open every day. -/
theorem isWithinShopHours_iff (o c : Clock) (shopDays : Option String) :
    (∀ now, IsWithinShopHours utcoffset clock (some o.text) (some c.text) shopDays now ↔
      InOwnSession (DayAllowed shopDays) o c (wallTime utcoffset clock now)) ∧
    ((∀ now, IsWithinShopHours utcoffset clock (some o.text) (some c.text) shopDays now ↔
        InSession (DayAllowed shopDays) o c (wallTime utcoffset clock now)) ↔
      o.time ≤ c.time ∨ c.time = 0 ∨ ∀ w < 7, DayAllowed shopDays w) := by
  have hown : ∀ now,
      IsWithinShopHours utcoffset clock (some o.text) (some c.text) shopDays now ↔
        InOwnSession (DayAllowed shopDays) o c (wallTime utcoffset clock now) := by
    intro now
    rw [isWithinShopHours_iff_inOwnSession, parseHhmm_text, parseHhmm_text]
  refine ⟨hown, ?_⟩
  rw [← inSession_iff_inOwnSession_iff (exists_dayAllowed shopDays)]
  constructor
  · intro h wall
    exact (hown (some (.naive wall))).symm.trans (h (some (.naive wall)))
  · intro h now
    exact (hown now).trans (h _)

end Open

/-- A shop that is open on Saturdays from 22:00 to 06:00 is closed at one in the night after. -/
theorem isWithinShopHours_not_inSession :
    ¬ ∀ (utcoffset : ℤ → ℤ) (clock : ℤ) (o c : Clock) (shopDays : Option String) (now),
      IsWithinShopHours utcoffset clock (some o.text) (some c.text) shopDays now ↔
        InSession (DayAllowed shopDays) o c (wallTime utcoffset clock now) := by
  intro h
  have hsunday := (h (fun _ => 19800000000) 0 ⟨22, 0, by decide, by decide⟩
    ⟨6, 0, by decide, by decide⟩ (some "Sat") (some (.naive (3 * dayLong + 60 * minuteLong)))).2
    ⟨2, by decide +kernel, by decide, by decide⟩
  revert hsunday
  decide +kernel

end ShopHours

end SweetCrust

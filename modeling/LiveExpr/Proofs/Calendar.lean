import LiveExpr.Proofs.Numerals
import LiveExpr.Time.IsoText
import Mathlib.Tactic.Common
import Mathlib.Tactic.IntervalCases

/-!
# Dates read back

The day of a number has that number and is a day of its month, a moment reads back from
its written form if its day is in the calendar, and the day of a moment that was read is.
Main statements: `CalendarDay.number_ofNumber`, `CalendarDay.ofNumber_number`,
`Timestamp.ofIso?_toIso`, `Timestamp.isValid_of_ofIso?` and `Timestamp.toIso_canonical`.
-/

namespace LiveExpr

namespace CalendarDay

/-! ### Eras -/

/-- A day of an era by its century, its group of four years, its year in the group and
its day in the year.  The last year of a group has a leap day, but in the last group of a
century only if the era ends with it. -/
structure IsDayOfEra (e c q y d : Int) : Prop where
  century : 0 ≤ c ∧ c ≤ 3
  group : 0 ≤ q ∧ q ≤ 24
  year : 0 ≤ y ∧ y ≤ 3
  day : 0 ≤ d ∧ d ≤ 365
  leap : d = 365 → y = 3 ∧ (q = 24 → c = 3)
  eq : e = 36524 * c + 1461 * q + 365 * y + d

/-- Every day of an era has such parts. -/
theorem exists_isDayOfEra {e : Int} (h0 : 0 ≤ e) (h1 : e < 146097) :
  ∃ c q y d, IsDayOfEra e c q y d
  := by
  obtain ⟨c, r, hc, hr, hlast, he⟩ : ∃ c r : Int, (0 ≤ c ∧ c ≤ 3) ∧ (0 ≤ r ∧ r ≤ 36524)
      ∧ (r = 36524 → c = 3) ∧ e = 36524 * c + r :=
    ⟨e / 36524 - e / 146096, e - 36524 * (e / 36524 - e / 146096), by omega⟩
  rcases Decidable.em (r % 1461 = 1460) with hleap | hleap
  · exact ⟨c, r / 1461, 3, 365, hc, by omega, by omega, by omega, by omega, by omega⟩
  · exact ⟨c, r / 1461, r % 1461 / 365, r % 1461 % 365, hc, by omega, by omega, by omega,
      by omega, by omega⟩

variable {e c q y d : Int}

/-- The year of a day of an era. -/
theorem IsDayOfEra.yearOfEra (h : IsDayOfEra e c q y d) :
  (e - e / 1460 + e / 36524 - e / 146096) / 365 = 100 * c + 4 * q + y
  := by
  obtain ⟨hc, hq, hy, hd, hleap, he⟩ := h
  have hcentury : e / 36524 - e / 146096 = c := by
    rcases Decidable.em (e = 146096) with rfl | hlast
    · have : c = 3 := by omega
      omega
    · have hera : e / 146096 = 0 := by omega
      have hlower : 36524 * c ≤ e := by omega
      have hupper : e < 36524 * (c + 1) := by omega
      have : e / 36524 = c := by omega
      omega
  rcases Int.lt_or_le (24 * c + q + 365 * y + d) 1460 with hgroup | hgroup
  · have : e / 1460 = 25 * c + q := by omega
    omega
  · have : e / 1460 = 25 * c + q + 1 := by omega
    omega

/-- The day of the year of a day of an era. -/
theorem IsDayOfEra.dayOfYear (h : IsDayOfEra e c q y d) :
  e - (365 * (100 * c + 4 * q + y) + (100 * c + 4 * q + y) / 4 - (100 * c + 4 * q + y) / 100)
    = d
  := by
  obtain ⟨hc, hq, hy, hd, hleap, he⟩ := h
  omega

/-- The day of an era and a day of it, by the parts of that day. -/
theorem ofNumber_of_isDayOfEra (h : IsDayOfEra e c q y d) (era : Int) :
  ofNumber (era * 146097 + e - 719468)
    = if (5 * d + 2) / 153 < 10 then
        ⟨100 * c + 4 * q + y + era * 400, (5 * d + 2) / 153 + 3,
          d - (153 * ((5 * d + 2) / 153) + 2) / 5 + 1⟩
      else
        ⟨100 * c + 4 * q + y + era * 400 + 1, (5 * d + 2) / 153 - 9,
          d - (153 * ((5 * d + 2) / 153) + 2) / 5 + 1⟩
  := by
  have hrange : 0 ≤ e ∧ e < 146097 := by
    obtain ⟨hc, hq, hy, hd, hleap, he⟩ := h
    omega
  have hmod : (era * 146097 + e - 719468 + 719468) % 146097 = e := by omega
  have hdiv : (era * 146097 + e - 719468 + 719468) / 146097 = era := by omega
  simp only [ofNumber, hmod, hdiv, h.yearOfEra, h.dayOfYear]

/-- A day of a number, by the parts of its day of the era. -/
theorem ofNumber_eq (n : Int) :
  ∃ era e c q y d, n + 719468 = era * 146097 + e ∧ IsDayOfEra e c q y d
    ∧ ofNumber n
      = if (5 * d + 2) / 153 < 10 then
          ⟨100 * c + 4 * q + y + era * 400, (5 * d + 2) / 153 + 3,
            d - (153 * ((5 * d + 2) / 153) + 2) / 5 + 1⟩
        else
          ⟨100 * c + 4 * q + y + era * 400 + 1, (5 * d + 2) / 153 - 9,
            d - (153 * ((5 * d + 2) / 153) + 2) / 5 + 1⟩
  := by
  obtain ⟨c, q, y, d, h⟩ := exists_isDayOfEra (e := (n + 719468) % 146097) (by omega) (by omega)
  refine ⟨(n + 719468) / 146097, (n + 719468) % 146097, c, q, y, d, by omega, h, ?_⟩
  rw [← ofNumber_of_isDayOfEra h]
  congr 1
  omega

/-- The day of a number has that number. -/
theorem number_ofNumber (n : Int) :
  (ofNumber n).number = n
  := by
  obtain ⟨era, e, c, q, y, d, hn, h, heq⟩ := ofNumber_eq n
  have hday := h.dayOfYear
  obtain ⟨hc, hq, hy, hd, -, -⟩ := h
  have hera : (100 * c + 4 * q + y + era * 400) / 400 = era := by omega
  have hyear : (100 * c + 4 * q + y + era * 400) % 400 = 100 * c + 4 * q + y := by omega
  have hmonth : 0 ≤ (5 * d + 2) / 153 ∧ (5 * d + 2) / 153 ≤ 11 := by omega
  rw [heq]
  generalize (5 * d + 2) / 153 = month at hmonth
  split
  · have hmarch : ¬month + 3 ≤ 2 := by omega
    have hback : month + 3 - 3 = month := by omega
    simp only [number, hmarch, if_false, hback, hera, hyear]
    omega
  · have hmarch : month - 9 ≤ 2 := by omega
    have hback : month - 9 + 9 = month := by omega
    have hnext : 100 * c + 4 * q + y + era * 400 + 1 - 1 = 100 * c + 4 * q + y + era * 400 := by
      omega
    simp only [number, hmarch, if_true, hback, hnext, hera, hyear]
    omega

/-- The day of a number is a day of its month. -/
theorem isDay_ofNumber (n : Int) :
  (1 ≤ (ofNumber n).month ∧ (ofNumber n).month ≤ 12) ∧ 1 ≤ (ofNumber n).day
    ∧ (ofNumber n).day ≤ monthLength (ofNumber n).year (ofNumber n).month
  := by
  obtain ⟨era, e, c, q, y, d, -, ⟨hc, hq, hy, hd, hleap, -⟩, heq⟩ := ofNumber_eq n
  have hmonth : 0 ≤ (5 * d + 2) / 153 ∧ (5 * d + 2) / 153 ≤ 11 := by omega
  rw [heq]
  split
  · simp only [monthLength]
    omega
  · have hleapYear : d = 365 →
        isLeapYear (100 * c + 4 * q + y + era * 400 + 1) = true := by
      intro h
      obtain ⟨rfl, hlast⟩ := hleap h
      simp only [isLeapYear, decide_eq_true_eq]
      omega
    have hfebruary : isLeapYear (100 * c + 4 * q + y + era * 400 + 1) = false → d ≤ 364 := by
      intro h
      by_contra hlt
      rw [hleapYear (by omega)] at h
      cases h
    simp only [monthLength]
    cases hyear : isLeapYear (100 * c + 4 * q + y + era * 400 + 1) with
    | true =>
      simp only [if_true]
      omega
    | false =>
      have := hfebruary hyear
      simp only [Bool.false_eq_true, if_false]
      omega

/-! ### Days of the calendar -/

/-- The month of a day, counted from March, and its day of the month are found from its
day of the year. -/
theorem ofNumber_of_march {era month day : Int} (h : IsDayOfEra e c q y d)
    (hd : d = (153 * month + 2) / 5 + day - 1) (hday : 1 ≤ day)
    (hlength : month ≤ 10 → (153 * month + 2) / 5 + day ≤ (153 * (month + 1) + 2) / 5)
    (hmonth : month ≤ 11) :
  ofNumber (era * 146097 + e - 719468)
    = if month < 10 then ⟨100 * c + 4 * q + y + era * 400, month + 3, day⟩
      else ⟨100 * c + 4 * q + y + era * 400 + 1, month - 9, day⟩
  := by
  have hback : (5 * d + 2) / 153 = month := by
    have := h.day
    clear h
    omega
  have hrest : d - (153 * month + 2) / 5 + 1 = day := by omega
  rw [ofNumber_of_isDayOfEra h, hback, hrest]

/-- The parts of the year of a day in its era. -/
theorem isDayOfEra_year {year d : Int} (hd : 0 ≤ d ∧ d ≤ 365)
    (hleap : d = 365 → isLeapYear (year + 1) = true) :
  IsDayOfEra (year % 400 * 365 + year % 400 / 4 - year % 400 / 100 + d)
    (year % 400 / 100) (year % 100 / 4) (year % 4) d
  := by
  refine ⟨by omega, by omega, by omega, hd, fun hlast => ?_, by omega⟩
  have hyear := hleap hlast
  clear hleap
  simp only [isLeapYear, decide_eq_true_eq] at hyear
  omega

/-- The number of a day, by its month counted from March, is that of the day. -/
theorem ofNumber_number_march {year month day : Int} (hmonth : 0 ≤ month ∧ month ≤ 11)
    (hday : 1 ≤ day)
    (hlength : month ≤ 10 → (153 * month + 2) / 5 + day ≤ (153 * (month + 1) + 2) / 5)
    (hfebruary : month = 11 → day ≤ 28 ∨ day = 29 ∧ isLeapYear (year + 1) = true) :
  ofNumber (year / 400 * 146097
      + (year % 400 * 365 + year % 400 / 4 - year % 400 / 100
        + ((153 * month + 2) / 5 + day - 1)) - 719468)
    = if month < 10 then ⟨year, month + 3, day⟩ else ⟨year + 1, month - 9, day⟩
  := by
  have hd : 0 ≤ (153 * month + 2) / 5 + day - 1 ∧ (153 * month + 2) / 5 + day - 1 ≤ 365 := by
    omega
  have hleap : (153 * month + 2) / 5 + day - 1 = 365 → isLeapYear (year + 1) = true := by
    intro hlast
    obtain hshort | ⟨-, hyear⟩ := hfebruary (by omega)
    · omega
    · exact hyear
  rw [ofNumber_of_march (isDayOfEra_year hd hleap) rfl hday hlength hmonth.2]
  have hyear : 100 * (year % 400 / 100) + 4 * (year % 100 / 4) + year % 4 + year / 400 * 400
      = year := by
    clear hd hleap hlength hfebruary
    omega
  rw [hyear]

/-- A day of a month is the day of its number. -/
theorem ofNumber_number {d : CalendarDay} (hmonth : 1 ≤ d.month ∧ d.month ≤ 12)
    (hday : 1 ≤ d.day) (hlength : d.day ≤ monthLength d.year d.month) :
  ofNumber d.number = d
  := by
  obtain ⟨year, month, day⟩ := d
  simp only [monthLength] at hmonth hday hlength
  rcases Int.lt_or_le 2 month with hmarch | hmarch
  · have hmonths : (153 * (month - 3) + 2) / 5 + day ≤ (153 * (month - 3 + 1) + 2) / 5
        ∨ month = 12 ∧ day ≤ 31 := by
      obtain ⟨-, hmonth⟩ := hmonth
      interval_cases month <;> omega
    have hnumber := @ofNumber_number_march year (month - 3) day (by omega) hday (by omega)
      (by omega)
    rw [number]
    simp only [Int.not_le.mpr hmarch, if_false]
    rw [hnumber, if_pos (by omega), Int.sub_add_cancel]
  · have hfebruary : month + 9 = 11 → day ≤ 28 ∨ day = 29 ∧ isLeapYear (year - 1 + 1) = true := by
      intro hsecond
      have hsecond : month = 2 := by omega
      rw [if_pos hsecond] at hlength
      rw [Int.sub_add_cancel]
      split at hlength
      · next hleap => 
        have : day ≤ 28 ∨ day = 29 := by omega
        exact this.imp_right fun h => ⟨h, hleap⟩
      · exact .inl hlength
    have hnumber := @ofNumber_number_march (year - 1) (month + 9) day (by omega) hday (by omega)
      hfebruary
    rw [number]
    simp only [hmarch, if_true]
    rw [hnumber, if_neg (by omega), Int.sub_add_cancel, Int.add_sub_cancel]

/-- Days of about eight thousand years around the epoch are in the calendar. -/
theorem isValid_ofNumber {n : Int} (h : -4000000 ≤ n ∧ n ≤ 4000000) :
  (ofNumber n).isValid = true
  := by
  have hyear : firstYear ≤ (ofNumber n).year ∧ (ofNumber n).year ≤ lastYear := by
    obtain ⟨era, e, c, q, y, d, hn, ⟨hc, hq, hy, hd, -, he⟩, heq⟩ := ofNumber_eq n
    rw [heq, firstYear, lastYear]
    split
    · simp only
      omega
    · simp only
      omega
  obtain ⟨⟨hmonth, hmonth'⟩, hday, hday'⟩ := isDay_ofNumber n
  simp only [isValid, decide_eq_true_eq]
  exact ⟨hyear.1, hyear.2, hmonth, hmonth', hday, hday'⟩

theorem ofNumber_number_of_isValid {d : CalendarDay} (h : d.isValid = true) :
  ofNumber d.number = d
  := by
  simp only [isValid, decide_eq_true_eq] at h
  obtain ⟨-, -, hmonth, hmonth', hday, hlength⟩ := h
  exact ofNumber_number ⟨hmonth, hmonth'⟩ hday hlength

/-- The number of a day of a year with four digits. -/
theorem number_bounds {d : CalendarDay} (h : d.isValid = true) (h0 : 0 ≤ d.year)
    (h1 : d.year < 10000) :
  -1000000 ≤ d.number ∧ d.number ≤ 3000000
  := by
  simp only [isValid, decide_eq_true_eq] at h
  obtain ⟨-, -, hmonth, hmonth', hday, hlength⟩ := h
  have hlength : d.day ≤ 31 := by
    apply Int.le_trans hlength
    rw [monthLength]
    split <;> split <;> omega
  simp only [number]
  split
  · omega
  · omega

end CalendarDay

namespace Timestamp

open Text (isDigit digitsValue padNumber)

/-! ### Numbers -/

/-- A number in at least some digits is written in digits that state it. -/
theorem padNumber_spec (width n : Nat) :
  (∀ c ∈ padNumber width n, isDigit c = true) ∧ digitsValue (padNumber width n) = n
    ∧ padNumber width n ≠ []
  := by
  obtain ⟨hdigits, hvalue, hne⟩ := Text.toDigits_spec n
  have hzeros (k : Nat) : digitsValue (List.replicate k '0' ++ Nat.toDigits 10 n) = n := by
    induction k with
    | zero => exact hvalue
    | succ k ih => exact ih
  rw [padNumber]
  refine ⟨?_, hzeros _, List.append_ne_nil_of_right_ne_nil _ hne⟩
  intro c hc
  rw [List.mem_append] at hc
  rcases hc with hc | hc
  · rw [List.eq_of_mem_replicate hc]
    rfl
  · exact hdigits c hc

theorem length_padNumber {width n : Nat} (hwidth : 0 < width) (h : n < 10 ^ width) :
  (padNumber width n).length = width
  := by
  have hlength := (Nat.length_toDigits_le_iff (by decide) hwidth).mpr h
  rw [padNumber, List.length_append, List.length_replicate, Nat.sub_add_cancel hlength]

/-- Digits are read up to a character that is none. -/
theorem readUpTo?_digits {most : Nat} {digits rest : List Char}
    (hdigits : ∀ c ∈ digits, isDigit c = true) (hne : digits ≠ [])
    (hmost : digits.length ≤ most) (hrest : ∀ c ∈ rest.head?, isDigit c = false) :
  readUpTo? most (digits ++ rest) = some ((digitsValue digits : Int), rest)
  := by
  have hspan : ((digits ++ rest).take most).takeWhile isDigit = digits := by
    rw [List.take_append, List.take_of_length_le hmost, List.takeWhile_append_of_pos hdigits]
    rcases hcount : most - digits.length with _ | count
    · simp
    · rcases rest with _ | ⟨c, rest⟩
      · simp
      · simp [hrest c rfl]
  rw [readUpTo?, hspan]
  simp [hne]

/-- A digit is no blank and no sign. -/
theorem isDigit_spec {c : Char} (h : isDigit c = true) :
  isBlank c = false ∧ c ≠ '-' ∧ c ≠ '+'
  := by
  have hcode : 48 ≤ c.toNat ∧ c.toNat ≤ 57 := of_decide_eq_true h
  refine ⟨?_, ?_, ?_⟩
  · simp only [isBlank, decide_eq_false_iff_not]
    omega
  · rintro rfl
    cases h
  · rintro rfl
    cases h

theorem dropBlanks_digits {digits rest : List Char} (h : ∀ c ∈ digits, isDigit c = true)
    (hne : digits ≠ []) :
  (digits ++ rest).dropWhile isBlank = digits ++ rest
  := by
  rcases digits with _ | ⟨c, digits⟩
  · exact absurd rfl hne
  · rw [List.cons_append, List.dropWhile_cons_of_neg]
    simp [(isDigit_spec (h c List.mem_cons_self)).1]

/-- A field of two digits reads back. -/
theorem readField?_padNumber (mark : Char) {n : Int} (h0 : 0 ≤ n) (h1 : n < 100)
    {rest : List Char} (hrest : ∀ c ∈ rest.head?, isDigit c = false) :
  readField? mark (mark :: (padNumber 2 n.toNat ++ rest)) = some (n, rest)
  := by
  obtain ⟨hdigits, hvalue, hne⟩ := padNumber_spec 2 n.toNat
  have hlength : (padNumber 2 n.toNat).length = 2 := length_padNumber (by decide) (by omega)
  rw [readField?, readMark?, if_pos rfl]
  simp only [Option.bind_eq_bind, Option.bind_some]
  rw [dropBlanks_digits hdigits hne, readUpTo?_digits hdigits hne (Nat.le_of_eq hlength) hrest,
    hvalue, Int.toNat_of_nonneg h0]

/-- A year reads back. -/
theorem readYear?_yearChars (year : Int) {rest : List Char}
    (hrest : ∀ c ∈ rest.head?, isDigit c = false) :
  readYear? (yearChars year ++ rest) = some (year, rest)
  := by
  obtain ⟨hdigits, hvalue, hne⟩ := padNumber_spec 4 year.natAbs
  have hread (most : Nat) (hmost : (padNumber 4 year.natAbs).length ≤ most) :=
    readUpTo?_digits hdigits hne hmost hrest
  have hsign {sign : Char} (hsign : isBlank sign = false) :
      (sign :: (padNumber 4 year.natAbs ++ rest)).dropWhile isBlank
        = sign :: (padNumber 4 year.natAbs ++ rest) :=
    List.dropWhile_cons_of_neg (by simp [hsign])
  have hlong := hread (padNumber 4 year.natAbs ++ rest).length (by simp)
  rw [hvalue] at hlong
  unfold yearChars
  split
  · rw [List.cons_append, readYear?, hsign (by decide)]
    simp only [hlong, Option.map_some]
    congr 2
    omega
  · split
    · rw [List.cons_append, readYear?, hsign (by decide)]
      simp only [hlong]
      congr 2
      omega
    · have hlength : (padNumber 4 year.natAbs).length = 4 :=
        length_padNumber (by decide) (by omega)
      have hhead {c : Char} {text : List Char} (heq : padNumber 4 year.natAbs ++ rest = c :: text) :
          c ≠ '-' ∧ c ≠ '+' := by
        rcases hpad : padNumber 4 year.natAbs with _ | ⟨first, others⟩
        · exact absurd hpad hne
        · rw [hpad] at heq hdigits
          obtain rfl := (List.cons.inj heq).1
          exact (isDigit_spec (hdigits first List.mem_cons_self)).2
      rw [readYear?, dropBlanks_digits hdigits hne]
      split
      · next heq => exact absurd rfl (hhead heq).1
      · next heq => exact absurd rfl (hhead heq).2
      · rw [hread 4 (Nat.le_of_eq hlength), hvalue]
        congr 2
        omega

/-! ### Moments -/

/-- The parts of a moment at a whole second make up the moment. -/
theorem ofParts_day_clock {t : Timestamp} (h : t.nanos = 0) :
  ofParts t.day t.clock = t
  := by
  obtain ⟨seconds, nanos⟩ := t
  obtain rfl : nanos = 0 := h
  have hzero : ((0 / 1000000000 : Nat) : Int) = 0 := rfl
  rw [ofParts, day, CalendarDay.number_ofNumber, clock]
  congr 1
  simp only [hzero]
  omega

/-- Month and day of a moment have two digits. -/
theorem day_bounds (t : Timestamp) :
  (0 ≤ t.day.month ∧ t.day.month < 100) ∧ 0 ≤ t.day.day ∧ t.day.day < 100
  := by
  obtain ⟨hmonth, hday, hday'⟩ := CalendarDay.isDay_ofNumber (t.seconds / 86400)
  have hlength : CalendarDay.monthLength t.day.year t.day.month ≤ 31 := by
    simp only [CalendarDay.monthLength]
    split <;> split <;> omega
  simp only [day] at hlength ⊢
  omega

/-- The parts of the time of day at a whole second. -/
theorem clock_bounds {t : Timestamp} (h : t.nanos = 0) :
  (0 ≤ t.clock.hour ∧ t.clock.hour ≤ 23) ∧ (0 ≤ t.clock.minute ∧ t.clock.minute ≤ 59)
    ∧ 0 ≤ t.clock.second ∧ t.clock.second ≤ 59
  := by
  have hzero : ((0 / 1000000000 : Nat) : Int) = 0 := rfl
  simp only [clock, h, hzero]
  omega

/-- The written form of a moment is read as its parts. -/
theorem readLoose?_isoChars {t : Timestamp} (h : t.nanos = 0) :
  readLoose? t.isoChars = ofParts? t.day t.clock
  := by
  obtain ⟨⟨hmonth, hmonth'⟩, hday, hday'⟩ := day_bounds t
  obtain ⟨⟨hhour, hhour'⟩, ⟨hminute, hminute'⟩, hsecond, hsecond'⟩ := clock_bounds h
  have hmark (mark : Char) (h : isDigit mark = false) (rest : List Char) :
      ∀ c ∈ (mark :: rest).head?, isDigit c = false := by
    rintro c ⟨⟩
    exact h
  simp only [isoChars, List.append_assoc, List.cons_append]
  rw [readLoose?, readYear?_yearChars _ (hmark '-' rfl _)]
  simp only [Option.bind_eq_bind, Option.bind_some,
    readField?_padNumber '-' hmonth hmonth' (hmark '-' rfl _),
    readField?_padNumber '-' hday hday' (hmark 'T' rfl _),
    readField?_padNumber 'T' hhour (by omega) (hmark ':' rfl _),
    readField?_padNumber ':' hminute (by omega) (hmark ':' rfl _),
    readField?_padNumber ':' hsecond (by omega) (hmark 'Z' rfl _), if_true]

/-- A moment of the calendar reads back from its written form. -/
theorem ofIso?_toIso {t : Timestamp} (h : t.nanos = 0) (hday : t.day.isValid = true) :
  ofIso? t.toIso = some t
  := by
  obtain ⟨⟨-, hhour⟩, ⟨-, hminute⟩, -, hsecond⟩ := clock_bounds h
  have hparts : ofParts? t.day t.clock = some t := by
    rw [ofParts?, if_pos ⟨hday, hhour, hminute, by omega⟩, ofParts_day_clock h]
  rw [ofIso?, toIso, String.toList_ofList, readLoose?_isoChars h, hparts]
  rfl

/-! ### Moments that are read -/

/-- Digits state a number below the power of ten of their count. -/
theorem digitsValue_lt {digits : List Char} (h : ∀ c ∈ digits, isDigit c = true) :
  digitsValue digits < 10 ^ digits.length
  := by
  have hfold (n : Nat) :
      digits.foldl (fun n c => 10 * n + (c.toNat - 48)) n < (n + 1) * 10 ^ digits.length := by
    induction digits generalizing n with
    | nil => exact Nat.lt_of_lt_of_eq (Nat.lt_succ_self n) (Nat.mul_one (n + 1)).symm
    | cons c rest ih =>
      have hcode : 48 ≤ c.toNat ∧ c.toNat ≤ 57 := of_decide_eq_true (h c List.mem_cons_self)
      calc rest.foldl (fun n c => 10 * n + (c.toNat - 48)) (10 * n + (c.toNat - 48))
        _ < (10 * n + (c.toNat - 48) + 1) * 10 ^ rest.length :=
          ih (fun d hd => h d (List.mem_cons_of_mem c hd)) _
        _ ≤ (n + 1) * 10 * 10 ^ rest.length := Nat.mul_le_mul_right _ (by omega)
        _ = (n + 1) * 10 ^ (c :: rest).length := by
          rw [List.length_cons, Nat.pow_succ', Nat.mul_assoc]
  have := hfold 0
  rwa [Nat.zero_add, Nat.one_mul] at this

theorem readUpTo?_nonneg {most : Nat} {text rest : List Char} {n : Int}
    (h : readUpTo? most text = some (n, rest)) :
  0 ≤ n
  := by
  simp only [readUpTo?] at h
  split at h
  · cases h
  · cases h
    exact Int.natCast_nonneg _

theorem readField?_nonneg {mark : Char} {text rest : List Char} {n : Int}
    (h : readField? mark text = some (n, rest)) :
  0 ≤ n
  := by
  simp only [readField?, Option.bind_eq_bind, Option.bind_eq_some_iff] at h
  obtain ⟨_, -, h⟩ := h
  exact readUpTo?_nonneg h

theorem readExactly?_bounds {count : Nat} {text rest : List Char} {n : Int}
    (h : readExactly? count text = some (n, rest)) :
  0 ≤ n ∧ n < 10 ^ count
  := by
  simp only [readExactly?] at h
  split at h
  · next hdigits =>
    cases h
    obtain ⟨hlength, hdigits⟩ := hdigits
    have hvalue := digitsValue_lt (List.all_eq_true.mp hdigits)
    rw [hlength] at hvalue
    refine ⟨Int.natCast_nonneg _, ?_⟩
    exact_mod_cast hvalue
  · cases h

/-- An offset from universal time is less than a day. -/
theorem readOffset?_bounds {text : List Char} {offset : Int}
    (h : readOffset? text = some offset) :
  -86400 < offset ∧ offset < 86400
  := by
  rcases text with _ | ⟨sign, rest⟩
  · cases h
  · simp only [readOffset?] at h
    split at h
    · split at h
      · cases h
        decide
      · cases h
    · split at h
      · simp only [Option.bind_eq_bind, Option.bind_eq_some_iff] at h
        obtain ⟨⟨hours, _⟩, hhours, _, -, ⟨minutes, _⟩, hminutes, h⟩ := h
        have hhours := readExactly?_bounds hhours
        have hminutes := readExactly?_bounds hminutes
        split at h
        · next hbounds =>
          cases h
          dsimp only at hbounds hhours hminutes ⊢
          split <;> omega
        · cases h
      · cases h

/-- The parts of a moment are a day of the calendar and a time of that day. -/
theorem ofParts?_spec {d : CalendarDay} {c : ClockTime} {t : Timestamp}
    (h : ofParts? d c = some t) (hhour : 0 ≤ c.hour) (hminute : 0 ≤ c.minute)
    (hsecond : 0 ≤ c.second) :
  d.isValid = true ∧ t.nanos = 0 ∧ d.number * 86400 ≤ t.seconds
    ∧ t.seconds < d.number * 86400 + 86400
  := by
  rw [ofParts?] at h
  split at h
  · next hvalid =>
    cases h
    obtain ⟨hvalid, hhour', hminute', hsecond'⟩ := hvalid
    refine ⟨hvalid, rfl, ?_⟩
    simp only [ofParts]
    omega
  · cases h

theorem readLoose?_isValid {text : List Char} {t : Timestamp} (h : readLoose? text = some t) :
  t.nanos = 0 ∧ t.day.isValid = true
  := by
  simp only [readLoose?, Option.bind_eq_bind, Option.bind_eq_some_iff] at h
  obtain ⟨⟨year, _⟩, -, ⟨month, _⟩, -, ⟨day, _⟩, -, ⟨hour, _⟩, hhour, ⟨minute, _⟩, hminute,
    ⟨second, _⟩, hsecond, h⟩ := h
  split at h
  · obtain ⟨hvalid, hnanos, hlower, hupper⟩ := ofParts?_spec h (readField?_nonneg hhour)
      (readField?_nonneg hminute) (readField?_nonneg hsecond)
    dsimp only at hlower hupper
    have hday : t.seconds / 86400 = (CalendarDay.mk year month day).number := by omega
    refine ⟨hnanos, ?_⟩
    rw [Timestamp.day, hday, CalendarDay.ofNumber_number_of_isValid hvalid]
    exact hvalid
  · cases h

theorem readStrict?_isValid {text : List Char} {t : Timestamp} (h : readStrict? text = some t) :
  t.nanos = 0 ∧ t.day.isValid = true
  := by
  rw [readStrict?] at h
  obtain ⟨⟨year, _⟩, hyear, h⟩ := Option.bind_eq_some_iff.mp h
  obtain ⟨_, -, h⟩ := Option.bind_eq_some_iff.mp h
  obtain ⟨_, -, h⟩ := Option.bind_eq_some_iff.mp h
  obtain ⟨_, -, h⟩ := Option.bind_eq_some_iff.mp h
  obtain ⟨_, -, h⟩ := Option.bind_eq_some_iff.mp h
  obtain ⟨_, -, h⟩ := Option.bind_eq_some_iff.mp h
  obtain ⟨⟨hour, _⟩, hhour, h⟩ := Option.bind_eq_some_iff.mp h
  obtain ⟨_, -, h⟩ := Option.bind_eq_some_iff.mp h
  obtain ⟨⟨minute, _⟩, hminute, h⟩ := Option.bind_eq_some_iff.mp h
  obtain ⟨_, -, h⟩ := Option.bind_eq_some_iff.mp h
  obtain ⟨⟨second, _⟩, hsecond, h⟩ := Option.bind_eq_some_iff.mp h
  obtain ⟨_, -, h⟩ := Option.bind_eq_some_iff.mp h
  obtain ⟨offset, hoffset, h⟩ := Option.bind_eq_some_iff.mp h
  obtain ⟨whole, hwhole, h⟩ := Option.bind_eq_some_iff.mp h
  obtain rfl := Option.some.inj h
  obtain ⟨hvalid, hnanos, hlower, hupper⟩ := ofParts?_spec hwhole (readExactly?_bounds hhour).1
    (readExactly?_bounds hminute).1 (readExactly?_bounds hsecond).1
  have hoffset := readOffset?_bounds hoffset
  have hyear := readExactly?_bounds hyear
  have hnumber := CalendarDay.number_bounds hvalid (by exact hyear.1) (by exact hyear.2)
  refine ⟨hnanos, CalendarDay.isValid_ofNumber ?_⟩
  dsimp only
  omega

/-- A moment that was read is at a whole second of a day in the calendar. -/
theorem isValid_of_ofIso? {text : String} {t : Timestamp} (h : ofIso? text = some t) :
  t.nanos = 0 ∧ t.day.isValid = true
  := by
  rw [ofIso?, Option.orElse_eq_orElse, Option.orElse_eq_or, Option.or_eq_some_iff] at h
  obtain hloose | ⟨-, hstrict⟩ := h
  · exact readLoose?_isValid hloose
  · exact readStrict?_isValid hstrict

/-! ### Canonical text -/

/-- The day of a moment is in the calendar if its year is. -/
theorem isValid_day_iff {t : Timestamp} :
  t.day.isValid = true
    ↔ CalendarDay.firstYear ≤ t.day.year ∧ t.day.year ≤ CalendarDay.lastYear
  := by
  obtain ⟨⟨hmonth, hmonth'⟩, hday, hday'⟩ := CalendarDay.isDay_ofNumber (t.seconds / 86400)
  simp only [CalendarDay.isValid, decide_eq_true_eq]
  constructor
  · exact fun h => ⟨h.1, h.2.1⟩
  · exact fun h => ⟨h.1, h.2, hmonth, hmonth', hday, hday'⟩

/-- A moment reads back from its written form exactly if it is a whole second of a year of the
calendar.  So does every moment that a text states, in whichever grammar. -/
theorem toIso_canonical :
  (∀ t : Timestamp, ofIso? t.toIso = some t ↔ t.nanos = 0
      ∧ CalendarDay.firstYear ≤ t.day.year ∧ t.day.year ≤ CalendarDay.lastYear)
    ∧ ∀ (text : String) (t : Timestamp), ofIso? text = some t →
      t.nanos = 0 ∧ ofIso? t.toIso = some t
  := by
  constructor
  · intro t
    rw [← isValid_day_iff]
    constructor
    · exact isValid_of_ofIso?
    · rintro ⟨hnanos, hday⟩
      exact ofIso?_toIso hnanos hday
  · intro text t h
    obtain ⟨hnanos, hday⟩ := isValid_of_ofIso? h
    exact ⟨hnanos, ofIso?_toIso hnanos hday⟩

/-- A signed year with short fields and a leap second, and an offset that moves the date to the
year before the year 0. -/
theorem toIso_canonical_ides :
  ofIso? "-44-3-15T 1:2:60Z" = some ⟨-63549356221, 0⟩
    ∧ ofIso? (toIso ⟨-63549356221, 0⟩) = some ⟨-63549356221, 0⟩
    ∧ ofIso? "0000-01-01t00:30:60.25+01:00" = some ⟨-62167220941, 0⟩
    ∧ ofIso? (toIso ⟨-62167220941, 0⟩) = some ⟨-62167220941, 0⟩
  := by
  have hides : ofIso? "-44-3-15T 1:2:60Z" = some ⟨-63549356221, 0⟩ := by decide
  have hoffset : ofIso? "0000-01-01t00:30:60.25+01:00" = some ⟨-62167220941, 0⟩ := by decide
  exact ⟨hides, (toIso_canonical.2 _ _ hides).2, hoffset, (toIso_canonical.2 _ _ hoffset).2⟩

end Timestamp

end LiveExpr

import McpSurfaces.Foundation.Decimal
import McpSurfaces.Foundation.IsoTime

/-!
The civil calendar: dates in their order, and the order of the texts of instants.

* **`civil_lt`**: a later day has a later date; `dayOf_civil`: a date tells its day.
* `IsoTime.Lawful`: what is said of the crate of dates; `utc_lawful`: the stand-in keeps to it.
* **`Lawful.format_le_iff`**: the texts of two instants compare as their milliseconds.
-/

namespace McpSurfaces

namespace IsoTime

/-! ### Years from March to March -/

/-- The first day of a year that starts in March, counted from that of the year 0. -/
def marchDay (year : ℤ) : ℤ := 365 * year + year / 4 - year / 100 + year / 400

lemma marchDay_lt {y z : ℤ} (h : y < z) : marchDay y + 365 ≤ marchDay z := by
  rw [marchDay, marchDay]
  omega

/-- A day of an era as centuries, cycles of four years, years and days. The last day of a cycle is
its day of February 29, which the last cycle of a century has only at the end of an era. -/
lemma exists_parts {dayOfEra : ℕ} (h : dayOfEra < 146097) : ∃ c q s n, c ≤ 3 ∧ q ≤ 24 ∧ s ≤ 3 ∧
    n ≤ 365 ∧ (n = 365 → s = 3 ∧ (q = 24 → c = 3)) ∧
    dayOfEra = 36524 * c + 1461 * q + 365 * s + n := by
  refine ⟨min (dayOfEra / 36524) 3, (dayOfEra - 36524 * min (dayOfEra / 36524) 3) / 1461,
    min ((dayOfEra - 36524 * min (dayOfEra / 36524) 3) % 1461 / 365) 3,
    (dayOfEra - 36524 * min (dayOfEra / 36524) 3) % 1461 -
      365 * min ((dayOfEra - 36524 * min (dayOfEra / 36524) 3) % 1461 / 365) 3, ?_⟩
  omega

/-- The year of a day of an era. -/
lemma yearOfEra_eq {c q s n dayOfEra : ℕ} (hc : c ≤ 3) (hq : q ≤ 24) (hs : s ≤ 3) (hn : n ≤ 365)
    (hleap : n = 365 → s = 3 ∧ (q = 24 → c = 3))
    (h : dayOfEra = 36524 * c + 1461 * q + 365 * s + n) :
    (dayOfEra - dayOfEra / 1460 + dayOfEra / 36524 - dayOfEra / 146096) / 365 =
      100 * c + 4 * q + s := by
  have hera : dayOfEra / 146096 = if n = 365 ∧ q = 24 then 1 else 0 := by
    split_ifs <;> omega
  have hcentury : dayOfEra / 36524 = c + if n = 365 ∧ q = 24 then 1 else 0 := by
    split_ifs <;> omega
  have hcycle : dayOfEra / 1460 =
      25 * c + q + if 1460 ≤ 24 * c + q + 365 * s + n then 1 else 0 := by
    split_ifs <;> omega
  rw [hera, hcentury, hcycle, h]
  split_ifs <;> omega

/-- The date of a day of a year that starts in March. -/
def marchDate (year : ℤ) (dayOfYear : ℕ) : ℤ × ℕ × ℕ :=
  let part := (5 * dayOfYear + 2) / 153
  let month := if part < 10 then part + 3 else part - 9
  (year + (if month ≤ 2 then 1 else 0), month, dayOfYear - (153 * part + 2) / 5 + 1)

/-- The first day of a year of an era, by centuries and cycles of four years. -/
lemma marchDay_parts {c q s : ℕ} (era : ℤ) (hc : c ≤ 3) (hq : q ≤ 24) (hs : s ≤ 3) :
    marchDay ((100 * c + 4 * q + s : ℕ) + era * 400) =
      146097 * era + (36524 * c + 1461 * q + 365 * s : ℕ) := by
  have hcycle : ((100 * c + 4 * q + s : ℕ) + era * 400) / 4 = 25 * c + q + era * 100 := by omega
  have hcentury : ((100 * c + 4 * q + s : ℕ) + era * 400) / 100 = c + era * 4 := by omega
  have hera : ((100 * c + 4 * q + s : ℕ) + era * 400) / 400 = era := by omega
  rw [marchDay, hcycle, hcentury, hera]
  omega

/-- A year of an era is over behind its February. -/
lemma lt_marchDay_succ {c q s n : ℕ} (era : ℤ) (hc : c ≤ 3) (hq : q ≤ 24) (hs : s ≤ 3)
    (hn : n ≤ 365) (hleap : n = 365 → s = 3 ∧ (q = 24 → c = 3)) :
    marchDay ((100 * c + 4 * q + s : ℕ) + era * 400) + n <
      marchDay ((100 * c + 4 * q + s : ℕ) + era * 400 + 1) := by
  have hstart := marchDay_parts era hc hq hs
  have hnext : marchDay ((100 * c + 4 * q + s : ℕ) + era * 400) + 365 ≤
      marchDay ((100 * c + 4 * q + s : ℕ) + era * 400 + 1) := marchDay_lt (lt_add_one _)
  rcases hn.lt_or_eq with hlt | rfl
  · omega
  · obtain ⟨rfl, hcentury⟩ := hleap rfl
    rcases hq.lt_or_eq with hinside | rfl
    · have hnext : ((100 * c + 4 * q + 3 : ℕ) : ℤ) + era * 400 + 1 =
          (100 * c + 4 * (q + 1) + 0 : ℕ) + era * 400 := by
        push_cast
        ring
      rw [hnext, marchDay_parts era hc hinside (Nat.zero_le 3), hstart]
      omega
    · obtain rfl := hcentury rfl
      have hnext : ((100 * 3 + 4 * 24 + 3 : ℕ) : ℤ) + era * 400 + 1 =
          (100 * 0 + 4 * 0 + 0 : ℕ) + (era + 1) * 400 := by
        push_cast
        ring
      rw [hnext, marchDay_parts (era + 1) (Nat.zero_le 3) (Nat.zero_le 24) (Nat.zero_le 3), hstart]
      omega

/-- The date of a day. -/
lemma exists_civil (days : ℤ) : ∃ (year : ℤ) (dayOfYear : ℕ), dayOfYear ≤ 365 ∧
    days + 719468 = marchDay year + dayOfYear ∧ marchDay year + dayOfYear < marchDay (year + 1) ∧
    civil days = marchDate year dayOfYear := by
  obtain ⟨era, hera⟩ : ∃ era, era = (days + 719468) / 146097 := ⟨_, rfl⟩
  obtain ⟨dayOfEra, hday⟩ : ∃ day, day = ((days + 719468) % 146097).toNat := ⟨_, rfl⟩
  have hsplit : days + 719468 = 146097 * era + dayOfEra := by omega
  obtain ⟨c, q, s, n, hc, hq, hs, hn, hleap, hparts⟩ :=
    exists_parts (show dayOfEra < 146097 by omega)
  have hcycle : (100 * c + 4 * q + s) / 4 = 25 * c + q := by omega
  have hcentury : (100 * c + 4 * q + s) / 100 = c := by omega
  have hrest : dayOfEra - (365 * (100 * c + 4 * q + s) + (100 * c + 4 * q + s) / 4 -
      (100 * c + 4 * q + s) / 100) = n := by
    rw [hcycle, hcentury]
    omega
  refine ⟨(100 * c + 4 * q + s : ℕ) + era * 400, n, hn, ?_,
    lt_marchDay_succ era hc hq hs hn hleap, ?_⟩
  · rw [hsplit, hparts, marchDay_parts era hc hq hs]
    push_cast
    ring
  · simp only [civil, ← hera, ← hday, yearOfEra_eq hc hq hs hn hleap hparts, hrest, marchDate]

/-! ### Dates in their order -/

/-- Dates in the order of year, month and day. -/
def DateLt (a b : ℤ × ℕ × ℕ) : Prop :=
  a.1 < b.1 ∨ a.1 = b.1 ∧ (a.2.1 < b.2.1 ∨ a.2.1 = b.2.1 ∧ a.2.2 < b.2.2)

/-- Months from March to February, and their days. -/
lemma exists_month (year : ℤ) {dayOfYear : ℕ} (h : dayOfYear ≤ 365) : ∃ part : ℕ, part ≤ 11 ∧
    12 * (marchDate year dayOfYear).1 + (marchDate year dayOfYear).2.1 = 12 * year + part + 3 ∧
    1 ≤ (marchDate year dayOfYear).2.1 ∧ (marchDate year dayOfYear).2.1 ≤ 12 ∧
    (marchDate year dayOfYear).2.2 + (153 * part + 2) / 5 = dayOfYear + 1 ∧
    dayOfYear < (153 * (part + 1) + 2) / 5 ∧ (marchDate year dayOfYear).2.2 ≤ 31 ∧
    1 ≤ (marchDate year dayOfYear).2.2 := by
  obtain ⟨part, hpart⟩ : ∃ part, part = (5 * dayOfYear + 2) / 153 := ⟨_, rfl⟩
  have heleven : part ≤ 11 := by omega
  have hfrom : (153 * part + 2) / 5 ≤ dayOfYear := by omega
  have huntil : dayOfYear < (153 * (part + 1) + 2) / 5 := by omega
  dsimp only [marchDate]
  rw [← hpart]
  refine ⟨part, heleven, ?_⟩
  rcases Nat.lt_or_ge part 10 with hyear | hnext
  · have hmonth : (if part < 10 then part + 3 else part - 9) = part + 3 := if_pos hyear
    rw [hmonth, if_neg (by omega)]
    omega
  · have hmonth : (if part < 10 then part + 3 else part - 9) = part - 9 := if_neg (by omega)
    rw [hmonth, if_pos (by omega)]
    omega

lemma marchDate_lt {y z : ℤ} {m n : ℕ} (hm : m ≤ 365) (hn : n ≤ 365)
    (h : y < z ∨ y = z ∧ m < n) : DateLt (marchDate y m) (marchDate z n) := by
  obtain ⟨p, hp, hmonth, hlow, hhigh, hday, -, -, -⟩ := exists_month y hm
  obtain ⟨r, hr, hmonth', hlow', hhigh', hday', hin, -, -⟩ := exists_month z hn
  have horder : 12 * y + p < 12 * z + r ∨ 12 * y + p = 12 * z + r ∧
      (marchDate y m).2.2 < (marchDate z n).2.2 := by
    rcases h with hlt | ⟨rfl, hlt⟩
    · exact .inl (by omega)
    · rcases Nat.lt_or_ge p r with hpart | hpart
      · exact .inl (by omega)
      · have hmono : (153 * (r + 1) + 2) / 5 ≤ (153 * p + 2) / 5 ∨ p = r := by omega
        rcases hmono with hmono | rfl
        · omega
        · exact .inr ⟨rfl, by omega⟩
  rw [DateLt]
  omega

/-- **A later day has a later date.** -/
theorem civil_lt {d e : ℤ} (h : d < e) : DateLt (civil d) (civil e) := by
  obtain ⟨y, m, hm, hd, hdin, hcivil⟩ := exists_civil d
  obtain ⟨z, n, hn, he, hein, hcivil'⟩ := exists_civil e
  rw [hcivil, hcivil']
  refine marchDate_lt hm hn ?_
  rcases lt_trichotomy y z with hlt | rfl | hgt
  · exact .inl hlt
  · exact .inr ⟨rfl, by omega⟩
  · -- a year that is over is not the year of a later day
    exfalso
    rcases (show z + 1 ≤ y by omega).lt_or_eq with hlater | rfl
    · have hyears := marchDay_lt hlater
      omega
    · omega

lemma year_le_of_le {d e : ℤ} (h : d ≤ e) : (civil d).1 ≤ (civil e).1 := by
  rcases h.lt_or_eq with hlt | rfl
  · rcases civil_lt hlt with hyear | ⟨hyear, -⟩
    · exact hyear.le
    · exact hyear.le
  · exact le_rfl

lemma civil_bounds (days : ℤ) : 1 ≤ (civil days).2.1 ∧ (civil days).2.1 ≤ 12 ∧
    1 ≤ (civil days).2.2 ∧ (civil days).2.2 ≤ 31 := by
  obtain ⟨year, dayOfYear, hbound, -, -, hcivil⟩ := exists_civil days
  obtain ⟨-, -, -, hlow, hmonth, -, -, hday, hpos⟩ := exists_month year hbound
  rw [hcivil]
  exact ⟨hlow, hmonth, hpos, hday⟩

/-- **A date tells its day.** -/
theorem dayOf_civil (days : ℤ) :
    dayOf (civil days).1 (civil days).2.1 (civil days).2.2 = days := by
  obtain ⟨year, dayOfYear, hbound, hdays, -, hcivil⟩ := exists_civil days
  obtain ⟨part, hpart, hmonth, hlow, hhigh, hday, -, -, hpos⟩ := exists_month year hbound
  rw [hcivil]
  generalize marchDate year dayOfYear = date at hmonth hlow hhigh hday hpos ⊢
  obtain ⟨y, month, day⟩ := date
  dsimp only at hmonth hlow hhigh hday hpos ⊢
  have hyear : (if month ≤ 2 then y - 1 else y) = year := by
    split_ifs <;> omega
  have hshift : (if 2 < month then month - 3 else month + 9) = part := by
    split_ifs <;> omega
  have hwithin : (153 * part + 2) / 5 + day - 1 = dayOfYear := by omega
  have hera : year = 400 * (year / 400) + (year % 400).toNat := by omega
  simp only [dayOf, hyear, hshift, hwithin]
  rw [marchDay] at hdays
  generalize (year % 400).toNat = rest at hera ⊢
  generalize year / 400 = era at hera hdays ⊢
  subst hera
  have hcycle : (400 * era + (rest : ℤ)) / 4 = 100 * era + (rest / 4 : ℕ) := by omega
  have hcentury : (400 * era + (rest : ℤ)) / 100 = 4 * era + (rest / 100 : ℕ) := by omega
  rw [hcycle, hcentury] at hdays
  omega

/-! ### Texts of instants -/

/-- The fields of a text of an instant, each with the mark behind it. -/
def textShape : List (ℕ × Char) :=
  [(4, '-'), (2, '-'), (2, 'T'), (2, ':'), (2, ':'), (2, '.'), (3, 'Z')]

/-- Year, month, day, hour, minute, second and millisecond. -/
def textFields (ms : ℤ) : List ℕ :=
  let (year, month, day) := civil (ms / 86400000)
  let time := (ms % 86400000).toNat
  [year.toNat, month, day, time / 3600000, time / 60000 % 60, time / 1000 % 60, time % 1000]

/-- The year of a millisecond. -/
def yearOf (ms : ℤ) : ℤ := (civil (ms / 86400000)).1

lemma utcText_eq (t : ℤ) : utcText t =
    if 0 ≤ yearOf (t / 1000000) ∧ yearOf (t / 1000000) ≤ 9999 then
      some (String.ofList (Decimal.fieldsText textShape (textFields (t / 1000000)))) else none := by
  rw [utcText, yearOf]
  simp [Decimal.fieldsText, textShape, textFields, padded, Decimal.padded]

lemma textFields_fit {ms : ℤ} (hfrom : 0 ≤ yearOf ms) (huntil : yearOf ms ≤ 9999) :
    List.Forall₂ (fun field n => n < 10 ^ field.1) textShape (textFields ms) := by
  have hbounds := civil_bounds (ms / 86400000)
  rw [yearOf] at hfrom huntil
  rw [textFields, textShape]
  generalize civil (ms / 86400000) = date at hbounds hfrom huntil ⊢
  obtain ⟨year, month, day⟩ := date
  simp only [List.forall₂_cons, List.forall₂_nil_left_iff, and_true] at hbounds hfrom huntil ⊢
  omega

lemma textFields_lt {m n : ℤ} (hfrom : 0 ≤ yearOf m) (h : m < n) : textFields m < textFields n := by
  have hdate : m / 86400000 < n / 86400000 ∨ m / 86400000 = n / 86400000 ∧
      (m % 86400000).toNat < (n % 86400000).toNat := by omega
  rw [yearOf] at hfrom
  rw [textFields, textFields]
  rcases hdate with hlt | ⟨heq, hlt⟩
  · have hcivil := civil_lt hlt
    generalize civil (m / 86400000) = date at hcivil hfrom ⊢
    generalize civil (n / 86400000) = date' at hcivil ⊢
    obtain ⟨year, month, day⟩ := date
    obtain ⟨year', month', day'⟩ := date'
    simp only [DateLt, List.cons_lt_cons_iff] at hcivil hfrom ⊢
    omega
  · rw [heq]
    generalize civil (n / 86400000) = date
    obtain ⟨year, month, day⟩ := date
    have hin : (n % 86400000).toNat < 86400000 := by omega
    generalize (m % 86400000).toNat = before at hlt ⊢
    generalize (n % 86400000).toNat = behind at hlt hin ⊢
    simp only [List.cons_lt_cons_iff, lt_irrefl, and_false, or_false, false_or, true_and]
    omega

/-! ### The years 0 to 9999 -/

/-- The first instant of the year 0. -/
def yearZero : ℤ := milliseconds (-62167219200000)

/-- The last instant of the year 9999, the last one of the crate of dates. -/
def lastInstant : ℤ := milliseconds 253402300800000 - 1

lemma yearOf_nonneg_iff (t : ℤ) : 0 ≤ yearOf (t / 1000000) ↔ yearZero ≤ t := by
  rw [yearOf, yearZero, milliseconds]
  constructor
  · intro h
    by_contra hbefore
    have hdate := civil_lt (show t / 1000000 / 86400000 < -719528 by omega)
    have hbounds := civil_bounds (t / 1000000 / 86400000)
    rw [show civil (-719528) = (0, 1, 1) by decide] at hdate
    simp only [DateLt] at hdate
    omega
  · intro h
    have hyear := year_le_of_le (show -719528 ≤ t / 1000000 / 86400000 by omega)
    rwa [show civil (-719528) = (0, 1, 1) by decide] at hyear

lemma yearOf_le_iff (t : ℤ) : yearOf (t / 1000000) ≤ 9999 ↔ t ≤ lastInstant := by
  rw [yearOf, lastInstant, milliseconds]
  constructor
  · intro h
    by_contra hbehind
    have hyear := year_le_of_le (show 2932897 ≤ t / 1000000 / 86400000 by omega)
    rw [show civil 2932897 = (10000, 1, 1) by decide] at hyear
    omega
  · intro h
    have hyear := year_le_of_le (show t / 1000000 / 86400000 ≤ 2932896 by omega)
    rwa [show civil 2932896 = (9999, 12, 31) by decide] at hyear

/-- What is said of the crate of dates. From the year 0 to the year 9999 an instant has the text of
its date and its time, and reads back without what is below a millisecond; behind them it has none.
The text of an earlier year has a sign, and RFC 3339 has none. -/
structure Lawful [IsoTime] : Prop where
  format_eq : ∀ t : ℤ, yearZero ≤ t → IsoTime.format t = utcText t
  parse_format : ∀ (t : ℤ) s, yearZero ≤ t → IsoTime.format t = some s →
    IsoTime.parse s = some (milliseconds (t / 1000000))
  parse_before : ∀ (t : ℤ) s, t < yearZero → IsoTime.format t = some s → IsoTime.parse s = none

section Law

variable [IsoTime]

/-- From the year 0 on, an instant has a text up to the last instant. -/
lemma Lawful.format_eq_none_iff (h : Lawful) {t : ℤ} (ht : yearZero ≤ t) :
    IsoTime.format t = none ↔ lastInstant < t := by
  rw [h.format_eq t ht, utcText_eq, ← not_le, ← yearOf_le_iff]
  have hyear := (yearOf_nonneg_iff t).mpr ht
  split_ifs with hin
  · simp [hin.2]
  · simpa using fun hle => hin ⟨hyear, hle⟩

/-- **The texts of two instants compare as their milliseconds.** -/
theorem Lawful.format_le_iff (h : Lawful) {t u : ℤ} {s r : String} (ht : yearZero ≤ t)
    (hu : yearZero ≤ u) (hs : IsoTime.format t = some s) (hr : IsoTime.format u = some r) :
    s ≤ r ↔ t / 1000000 ≤ u / 1000000 := by
  have htext {t : ℤ} {s : String} (ht : yearZero ≤ t) (hs : IsoTime.format t = some s) :
      (0 ≤ yearOf (t / 1000000) ∧ yearOf (t / 1000000) ≤ 9999) ∧
      s.toList = Decimal.fieldsText textShape (textFields (t / 1000000)) := by
    rw [h.format_eq t ht, utcText_eq] at hs
    split_ifs at hs with hin
    rw [← Option.some.inj hs]
    exact ⟨hin, String.toList_ofList⟩
  obtain ⟨⟨hfrom, huntil⟩, hs⟩ := htext ht hs
  obtain ⟨⟨hfrom', huntil'⟩, hr⟩ := htext hu hr
  have hwidth : ∀ field ∈ textShape, 0 < field.1 := by decide
  have hlt {m n : ℤ} (hm : 0 ≤ yearOf m) (hn : 0 ≤ yearOf n) (hn' : yearOf n ≤ 9999) (hmn : m < n) :
      Decimal.fieldsText textShape (textFields m) < Decimal.fieldsText textShape (textFields n) :=
    Decimal.fieldsText_lt hwidth rfl (textFields_fit hn hn') (textFields_lt hm hmn)
  rw [← String.not_lt, ← not_lt, not_iff_not, String.lt_iff, hs, hr]
  constructor
  · intro hless
    by_contra hle
    rcases (not_lt.mp hle).lt_or_eq with hgreater | hsame
    · exact List.lt_asymm hless (hlt hfrom hfrom' huntil' hgreater)
    · rw [hsame] at hless
      exact List.lt_irrefl _ hless
  · exact hlt hfrom' hfrom huntil

end Law

/-! ### The stand-in -/

lemma number_padded (width n : ℕ) : number (Decimal.padded width n) = some n := by
  rw [number, if_pos, Decimal.ofDigitChars_padded]
  exact List.all_eq_true.mpr fun c hc => Decimal.isDigit_of_mem_padded hc

/-- A text of the stand-in reads back. -/
lemma utcInstant_text {ms : ℤ} (hfrom : 0 ≤ yearOf ms) (huntil : yearOf ms ≤ 9999) :
    utcInstant (String.ofList (Decimal.fieldsText textShape (textFields ms))) =
      some (milliseconds ms) := by
  have hfit := textFields_fit hfrom huntil
  have hday := dayOf_civil (ms / 86400000)
  rw [yearOf] at hfrom
  rw [textFields] at hfit ⊢
  generalize civil (ms / 86400000) = date at hfit hday hfrom ⊢
  obtain ⟨year, month, day⟩ := date
  have htime : (ms % 86400000).toNat < 86400000 := by omega
  have hms : ms = ms / 86400000 * 86400000 + (ms % 86400000).toNat := by omega
  generalize (ms % 86400000).toNat = time at hfit htime hms ⊢
  simp only [textShape, List.forall₂_cons] at hfit
  obtain ⟨hyear, hmonth, hdate, hhour, hminute, hsecond, hmilli, -⟩ := hfit
  obtain ⟨a, b, c, d, h4⟩ := List.length_eq_four.mp (Decimal.length_padded (by decide) hyear)
  obtain ⟨e, f, h2⟩ := List.length_eq_two.mp (Decimal.length_padded (by decide) hmonth)
  obtain ⟨g, h, h2'⟩ := List.length_eq_two.mp (Decimal.length_padded (by decide) hdate)
  obtain ⟨i, j, hh⟩ := List.length_eq_two.mp (Decimal.length_padded (by decide) hhour)
  obtain ⟨k, l, hm⟩ := List.length_eq_two.mp (Decimal.length_padded (by decide) hminute)
  obtain ⟨m, n, hs⟩ := List.length_eq_two.mp (Decimal.length_padded (by decide) hsecond)
  obtain ⟨o, p, q, h3⟩ := List.length_eq_three.mp (Decimal.length_padded (by decide) hmilli)
  simp only [textShape, Decimal.fieldsText]
  rw [h4, h2, h2', hh, hm, hs, h3, utcInstant, String.toList_ofList]
  simp only [List.cons_append, List.nil_append]
  rw [← h4, ← h2, ← h2', ← hh, ← hm, ← hs, ← h3]
  have hyear : ((year.toNat : ℕ) : ℤ) = year := Int.toNat_of_nonneg hfrom
  simp only [number_padded, Option.bind_eq_bind, Option.bind_some, Option.pure_def, hyear]
  refine congrArg (fun ms => some (milliseconds ms)) ?_
  dsimp only at hday
  rw [hday]
  omega

lemma utc_lawful : @Lawful utc := by
  refine @Lawful.mk utc (fun _ _ => rfl) ?_ ?_
  · intro t s ht hs
    change utcText t = some s at hs
    rw [utcText_eq] at hs
    split_ifs at hs with hin
    obtain rfl := Option.some.inj hs
    exact utcInstant_text hin.1 hin.2
  · intro t s ht hs
    change utcText t = some s at hs
    rw [utcText_eq, if_neg fun hin => not_le.mpr ht ((yearOf_nonneg_iff t).mp hin.1)] at hs
    cases hs

end IsoTime

end McpSurfaces

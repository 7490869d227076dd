import Mathlib.Tactic

/-!
Instants and their text. The reading and the printing of dates come from a crate of their
own, the parameter `IsoTime`; `IsoTime.utc` is a stand-in that agrees with it on the texts in
UTC of the years 0 to 9999.
-/

namespace McpSurfaces

/-- An instant, in nanoseconds from 1970-01-01T00:00:00Z. -/
abbrev Instant := ℤ

/-- So many milliseconds. -/
def milliseconds (n : ℤ) : ℤ := n * 1000000

/-- The crate of dates: the text of an instant in UTC with milliseconds, none outside of the
range of dates, and the instant of a text of RFC 3339. -/
class IsoTime where
  format : Instant → Option String
  parse : String → Option Instant

namespace IsoTime

/-! ### The civil calendar -/

/-- The date of a day, counted from 1970-01-01: year, month and day. -/
def civil (days : ℤ) : ℤ × ℕ × ℕ :=
  let shifted := days + 719468
  let era := shifted / 146097
  let dayOfEra := (shifted % 146097).toNat
  let yearOfEra := (dayOfEra - dayOfEra / 1460 + dayOfEra / 36524 - dayOfEra / 146096) / 365
  let dayOfYear := dayOfEra - (365 * yearOfEra + yearOfEra / 4 - yearOfEra / 100)
  let part := (5 * dayOfYear + 2) / 153
  let month := if part < 10 then part + 3 else part - 9
  (yearOfEra + era * 400 + (if month ≤ 2 then 1 else 0), month,
    dayOfYear - (153 * part + 2) / 5 + 1)

/-- The day of a date. -/
def dayOf (year : ℤ) (month day : ℕ) : ℤ :=
  let shifted := if month ≤ 2 then year - 1 else year
  let era := shifted / 400
  let yearOfEra := (shifted % 400).toNat
  let dayOfYear := (153 * (if 2 < month then month - 3 else month + 9) + 2) / 5 + day - 1
  era * 146097 + (yearOfEra * 365 + yearOfEra / 4 - yearOfEra / 100 + dayOfYear : ℕ) - 719468

/-- A number with leading zeros. -/
def padded (width n : ℕ) : List Char :=
  let digits := Nat.toDigits 10 n
  List.replicate (width - digits.length) '0' ++ digits

/-- The number of a run of digits. -/
def number (cs : List Char) : Option ℕ :=
  if cs.all Char.isDigit then some (Nat.ofDigitChars 10 cs 0) else none

def utcText (t : Instant) : Option String :=
  let ms := t / 1000000
  let (year, month, day) := civil (ms / 86400000)
  let time := (ms % 86400000).toNat
  if 0 ≤ year ∧ year ≤ 9999 then
    some (String.ofList (padded 4 year.toNat ++ '-' :: padded 2 month ++ '-' :: padded 2 day ++
      'T' :: padded 2 (time / 3600000) ++ ':' :: padded 2 (time / 60000 % 60) ++
      ':' :: padded 2 (time / 1000 % 60) ++ '.' :: padded 3 (time % 1000) ++ ['Z']))
  else none

def utcInstant (s : String) : Option Instant :=
  match s.toList with
  | [a, b, c, d, '-', e, f, '-', g, h, 'T', i, j, ':', k, l, ':', m, n, '.', o, p, q, 'Z'] => do
      let year ← number [a, b, c, d]
      let month ← number [e, f]
      let day ← number [g, h]
      let hour ← number [i, j]
      let minute ← number [k, l]
      let second ← number [m, n]
      let ms ← number [o, p, q]
      return milliseconds (dayOf year month day * 86400000 +
        (hour * 3600000 + minute * 60000 + second * 1000 + ms : ℕ))
  | _ => none

/-- A stand-in for the crate of dates: the texts in UTC. -/
@[reducible] def utc : IsoTime where
  format := utcText
  parse := utcInstant

example : utcText (milliseconds 1767225600123) = some "2026-01-01T00:00:00.123Z" ∧
    utcInstant "2026-01-01T00:00:00.123Z" = some (milliseconds 1767225600123) := by decide +kernel

end IsoTime

end McpSurfaces

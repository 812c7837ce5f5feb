import HeartKeypad.Text.Blank
import HeartKeypad.Number.Read
import HeartKeypad.Time.Instant

/-!
# Timestamps in writing

A timestamp is a second of the proleptic Gregorian calendar and the nanoseconds
passed in it; from 10^9 nanoseconds on it lies in a leap second, which is written
as second 60.

* `Timestamp.toText` writes `YYYY-MM-DDTHH:MM:SSZ`, with the fewest of 0, 3, 6 or
  9 digits of a fraction that is exact.
* `Timestamp.read?` reads a date, a time and an offset.  Blanks may stand between
  the parts, numbers may be short, and letters may be of either case.

Years are turned into days by counting 400-year cycles from the first of March of
the year zero, so that a leap day ends its year.
-/

namespace HeartKeypad

/-- A day of the proleptic Gregorian calendar. -/
structure Date where
  year : Int
  month : Nat
  day : Nat
deriving DecidableEq

namespace Date

/-- The year has a 29th of February. -/
def isLeap (year : Int) : Bool :=
  year.emod 4 == 0 && (year.emod 100 != 0 || year.emod 400 == 0)

/-- The number of days of a month. -/
def monthLength (year : Int) : Nat → Nat
  | 2 => if isLeap year then 29 else 28
  | 4 | 6 | 9 | 11 => 30
  | _ => 31

/-- The date exists. -/
def valid (d : Date) : Bool :=
  decide (1 ≤ d.month) && decide (d.month ≤ 12) && decide (1 ≤ d.day) &&
    decide (d.day ≤ monthLength d.year d.month)

/-- The days from 1970-01-01 to a date. -/
def toDays (d : Date) : Int :=
  let y := if d.month ≤ 2 then d.year - 1 else d.year
  let m := if d.month ≤ 2 then d.month + 9 else d.month - 3
  let cycle := y.ediv 400
  let yearOfCycle := y.emod 400
  let dayOfYear := (153 * (m : Int) + 2).ediv 5 + d.day - 1
  cycle * 146097 + yearOfCycle * 365 + yearOfCycle.ediv 4 - yearOfCycle.ediv 100 +
    dayOfYear - 719468

/-- The date a number of days after 1970-01-01. -/
def ofDays (days : Int) : Date :=
  let z := days + 719468
  let cycle := z.ediv 146097
  let d := z.emod 146097
  let yearOfCycle := (d - d.ediv 1460 + d.ediv 36524 - d.ediv 146096).ediv 365
  let dayOfYear := d - (365 * yearOfCycle + yearOfCycle.ediv 4 - yearOfCycle.ediv 100)
  let m := (5 * dayOfYear + 2).ediv 153
  let day := dayOfYear - (153 * m + 2).ediv 5 + 1
  let month := if m < 10 then m + 3 else m - 9
  let year := yearOfCycle + cycle * 400 + if month ≤ 2 then 1 else 0
  ⟨year, month.toNat, day.toNat⟩

end Date

/-- A second since 1970-01-01T00:00:00Z and the nanoseconds passed in it, up to
2·10^9 in a leap second. -/
structure Timestamp where
  seconds : Int
  nanos : Nat
deriving DecidableEq

namespace Timestamp

/-- An instant as a timestamp; instants never lie in a leap second. -/
def ofInstant (t : Int) : Timestamp :=
  ⟨t.ediv 1000000000, (t.emod 1000000000).toNat⟩

/-- A number with at least `width` digits. -/
def padded (width n : Nat) : Text :=
  let ds := Nat.toDigits 10 n
  List.replicate (width - ds.length) '0' ++ ds

/-- A year: four digits, or a sign and at least four digits outside 0 to 9999. -/
def yearText (year : Int) : Text :=
  if 0 ≤ year then
    if year ≤ 9999 then padded 4 year.toNat else '+' :: padded 4 year.toNat
  else '-' :: padded 4 (-year).toNat

/-- The fraction of a second with its point; nothing for a whole second. -/
def fractionText (nanos : Nat) : Text :=
  if nanos = 0 then []
  else if nanos % 1000000 = 0 then '.' :: padded 3 (nanos / 1000000)
  else if nanos % 1000 = 0 then '.' :: padded 6 (nanos / 1000)
  else '.' :: padded 9 nanos

/-- The text of a timestamp. -/
def toText (t : Timestamp) : Text :=
  let date := Date.ofDays (t.seconds.ediv 86400)
  let second := (t.seconds.emod 86400).toNat
  let isLeap := decide (1000000000 ≤ t.nanos)
  yearText date.year ++ '-' :: padded 2 date.month ++ '-' :: padded 2 date.day ++
    'T' :: padded 2 (second / 3600) ++ ':' :: padded 2 (second / 60 % 60) ++
    ':' :: padded 2 (second % 60 + if isLeap then 1 else 0) ++
    fractionText (if isLeap then t.nanos - 1000000000 else t.nanos) ++ ['Z']

/-! ### Reading -/

/-- One to `most` digits, and the text behind them. -/
def readDigits? (most : Nat) (s : Text) : Option (Nat × Text) :=
  let ds := (s.take most).takeWhile Numeral.isDigit
  if ds.isEmpty then none else some (Numeral.nat ds, s.drop ds.length)

/-- A number of one or two digits behind blanks. -/
def readPair? (s : Text) : Option (Nat × Text) := readDigits? 2 s.trimStart

/-- The text behind one of the given characters. -/
def skip? (cs : Text) : Text → Option Text
  | c :: r => if cs.contains c then some r else none
  | [] => none

/-- A year: up to four digits, or a sign and any number of digits. -/
def readYear? (s : Text) : Option (Int × Text) :=
  match s.trimStart with
  | '-' :: r => (readDigits? r.length r).map fun (n, r) => (-(n : Int), r)
  | '+' :: r => (readDigits? r.length r).map fun (n, r) => ((n : Int), r)
  | r => (readDigits? 4 r).map fun (n, r) => ((n : Int), r)

/-- A fraction of a second in nanoseconds, with its point; digits from the tenth on
are dropped.  No fraction is zero. -/
def readFraction? : Text → Option (Nat × Text)
  | '.' :: r => do
    let (n, rest) ← readDigits? 9 r
    let count := r.length - rest.length
    some (n * Nat.pow 10 (9 - count), rest.dropWhile Numeral.isDigit)
  | r => some (0, r)

/-- Two digits and nothing else. -/
def twoDigits? : Text → Option (Nat × Text)
  | a :: b :: r =>
    if Numeral.isDigit a && Numeral.isDigit b then
      some (10 * Numeral.digitValue a + Numeral.digitValue b, r)
    else none
  | _ => none

/-- An offset from UTC in seconds: `Z`, `UTC`, or a sign, hours and minutes. -/
def readOffset? (s : Text) : Option (Int × Text) :=
  if (s.take 3).map Char.toUpper = ['U', 'T', 'C'] then some (0, s.drop 3)
  else match s with
    | 'Z' :: r | 'z' :: r => some (0, r)
    | '+' :: r => signed 1 r
    | '-' :: r | '−' :: r => signed (-1) r
    | _ => none
where
  signed (direction : Int) (r : Text) : Option (Int × Text) := do
    let (hours, r) ← twoDigits? r
    let (minutes, r) ← twoDigits? (r.dropWhile fun c => c == ':' || Text.isBlank c)
    if minutes < 60 then some (direction * (3600 * hours + 60 * minutes : Nat), r) else none

/-- A timestamp from its parts, if they name a second of the calendar. -/
def ofParts? (date : Date) (hour minute second nanos : Nat) (offset : Int) :
    Option Timestamp :=
  let isLeap := second == 60
  let second := if isLeap then 59 else second
  let clock : Nat := 3600 * hour + 60 * minute + second
  let seconds := date.toDays * 86400 + clock - offset
  let inCalendar := decide (Instant.earliest ≤ seconds * 1000000000) &&
    decide (seconds * 1000000000 ≤ Instant.latest)
  let inRange := decide (-262143 ≤ date.year) && decide (date.year ≤ 262142) && date.valid &&
    decide (hour < 24) && decide (minute < 60) && decide (second < 60) &&
    decide (-86400 < offset) && decide (offset < 86400)
  if inRange && inCalendar then some ⟨seconds, if isLeap then nanos + 1000000000 else nanos⟩
  else none

/-- A timestamp from its text: a date, `T` or a space, a time, and an offset. -/
def read? (s : Text) : Option Timestamp := do
  let (year, s) ← readYear? s
  let s ← skip? ['-'] s.trimStart
  let (month, s) ← readPair? s
  let s ← skip? ['-'] s.trimStart
  let (day, s) ← readPair? s
  let s ← skip? ['T', 't', ' '] s
  let (hour, s) ← readPair? s
  let s ← skip? [':'] s.trimStart
  let (minute, s) ← readPair? s
  let s ← skip? [':'] s.trimStart
  let (second, s) ← readPair? s
  let (nanos, s) ← readFraction? s
  let (offset, s) ← readOffset? s.trimStart
  if s.trimStart.isEmpty then ofParts? ⟨year, month, day⟩ hour minute second nanos offset
  else none

end Timestamp

end HeartKeypad

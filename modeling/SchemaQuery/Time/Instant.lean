import SchemaQuery.Number.Decimal
import SchemaQuery.Text.Blank
import SchemaQuery.Time.Span

/-!
Points in time, and their text in the form of RFC 3339. An instant is counted in seconds from the
beginning of 1970 in UTC; a leap second shares the count of the second before it and has a fraction of
one second or more. Writing is strict: UTC with `Z`, and as many groups of three fraction digits as lose
nothing. Reading is lenient: any offset, white space around the parts, a space in place of the `T`.
-/

namespace SchemaQuery

open Text

/-- A point in time. -/
structure Instant where
  /-- Seconds since the beginning of 1970. -/
  seconds : Int
  /-- Nanoseconds behind that; those from 1000000000 on are in a leap second. -/
  nanos : Nat
deriving DecidableEq, Repr

instance : Inhabited Instant := ⟨⟨0, 0⟩⟩

namespace Instant

/-! ### The calendar -/

/-- Days from the beginning of 1970 to a date of the Gregorian calendar. The year is taken to begin in
March, so that a leap day comes last. -/
def daysOfDate (year month day : Int) : Int :=
  let y := if month ≤ 2 then year - 1 else year
  let era := Int.fdiv y 400
  let yearOfEra := y - era * 400
  let dayOfYear := (153 * (if month > 2 then month - 3 else month + 9) + 2) / 5 + day - 1
  let dayOfEra := yearOfEra * 365 + yearOfEra / 4 - yearOfEra / 100 + dayOfYear
  era * 146097 + dayOfEra - 719468

/-- Year, month and day of a day counted from the beginning of 1970. -/
def dateOfDays (days : Int) : Int × Int × Int :=
  let z := days + 719468
  let era := Int.fdiv z 146097
  let dayOfEra := z - era * 146097
  let yearOfEra := (dayOfEra - dayOfEra / 1460 + dayOfEra / 36524 - dayOfEra / 146096) / 365
  let dayOfYear := dayOfEra - (365 * yearOfEra + yearOfEra / 4 - yearOfEra / 100)
  let month := (5 * dayOfYear + 2) / 153
  let day := dayOfYear - (153 * month + 2) / 5 + 1
  let month := if month < 10 then month + 3 else month - 9
  (yearOfEra + era * 400 + (if month ≤ 2 then 1 else 0), month, day)

/-- Whether a year has a leap day. -/
def isLeap (year : Int) : Bool := year % 4 = 0 && (year % 100 ≠ 0 || year % 400 = 0)

/-- The number of days of a month. -/
def monthLength (year : Int) (month : Nat) : Nat :=
  if month = 2 then (if isLeap year then 29 else 28)
  else if month ∈ [4, 6, 9, 11] then 30
  else 31

/-- The instant of a date and a time of day, if there are such. A sixtieth second is a leap second. -/
def ofDateTime? (year : Int) (month day hour minute second nanos : Nat) : Option Instant :=
  if 1 ≤ month ∧ month ≤ 12 ∧ 1 ≤ day ∧ day ≤ monthLength year month ∧ hour < 24 ∧ minute < 60
      ∧ second ≤ 60 then
    let days := daysOfDate year month day
    let leap := second = 60
    let second := if leap then 59 else second
    some ⟨days * 86400 + (hour * 3600 + minute * 60 + second : Nat),
      if leap then nanos + 1000000000 else nanos⟩
  else none

/-! ### Writing -/

/-- A number with at least `width` digits. -/
def padded (width n : Nat) : List Char :=
  let ds := Decimal.digits n
  Decimal.zeros (width - ds.length) ++ ds

/-- A year with at least four digits, and with a sign outside 0 to 9999. -/
def yearText (year : Int) : List Char :=
  if 0 ≤ year ∧ year ≤ 9999 then padded 4 year.toNat
  else (if year < 0 then '-' else '+') :: padded 4 year.natAbs

/-- A fraction of a second in 0, 3, 6 or 9 digits, the fewest that lose nothing. -/
def fractionText (nanos : Nat) : List Char :=
  if nanos = 0 then []
  else if nanos % 1000000 = 0 then '.' :: padded 3 (nanos / 1000000)
  else if nanos % 1000 = 0 then '.' :: padded 6 (nanos / 1000)
  else '.' :: padded 9 nanos

/-- The instant as it is written. -/
def text (t : Instant) : String :=
  let days := Int.fdiv t.seconds 86400
  let ofDay := (t.seconds - days * 86400).toNat
  let (year, month, day) := dateOfDays days
  String.ofList <|
    yearText year ++ '-' :: padded 2 month.toNat ++ '-' :: padded 2 day.toNat
      ++ 'T' :: padded 2 (ofDay / 3600) ++ ':' :: padded 2 (ofDay / 60 % 60)
      ++ ':' :: padded 2 (ofDay % 60 + t.nanos / 1000000000)
      ++ fractionText (t.nanos % 1000000000) ++ ['Z']

/-! ### Reading -/

/-- Reads between one and `most` digits. -/
def number? (most : Nat) (s : List Char) : Option (Nat × List Char) :=
  let ds := (s.take most).takeWhile Char.isDigit
  if ds = [] then none else some (Decimal.ofDigits ds, s.drop ds.length)

/-- Reads a number of one or two digits behind white space. -/
def twoDigits? (s : List Char) : Option (Nat × List Char) := number? 2 (trimStart s)

/-- Reads a year: up to four digits, or any number of them behind a sign. -/
def year? (s : List Char) : Option (Int × List Char) :=
  match trimStart s with
  | '-' :: r => (number? r.length r).map fun (n, r) => (-(n : Int), r)
  | '+' :: r => (number? r.length r).map fun (n, r) => ((n : Int), r)
  | r => (number? 4 r).map fun (n, r) => ((n : Int), r)

/-- Reads a mark, with white space allowed before it. -/
def mark? (c : Char) (s : List Char) : Option (List Char) :=
  match trimStart s with
  | d :: r => if d = c then some r else none
  | [] => none

/-- Reads a fraction of a second behind its point, in nanoseconds; digits behind the ninth do not
count. -/
def nanos? : List Char → Option (Nat × List Char)
  | '.' :: r => do
    let (n, rest) ← number? 9 r
    let count := r.length - rest.length
    some (n * Nat.pow 10 (9 - count), rest.dropWhile Char.isDigit)
  | r => some (0, r)

/-- Reads two digits. -/
def exactlyTwo? : List Char → Option (Nat × List Char)
  | a :: b :: r => if a.isDigit ∧ b.isDigit then some (Decimal.ofDigits [a, b], r) else none
  | _ => none

/-- Reads an offset from UTC, in minutes. -/
def offset? (s : List Char) : Option (Int × List Char) :=
  match s with
  | c :: r =>
    if c = 'Z' ∨ c = 'z' then some (0, r)
    else if (s.take 3).map Char.toUpper = ['U', 'T', 'C'] then some (0, s.drop 3)
    else if c = '+' ∨ c = '-' ∨ c = '−' then do
      let (hours, r) ← exactlyTwo? r
      let (minutes, r) ← exactlyTwo? (r.dropWhile fun d => d = ':' || isBlank d)
      if minutes < 60 ∧ hours < 24 then
        let total : Int := (hours * 60 + minutes : Nat)
        some (if c = '+' then total else -total, r)
      else none
    else none
  | [] => none

/-- Reads an instant. -/
def read? (s : String) : Option Instant := do
  let (year, r) ← year? s.toList
  let (month, r) ← twoDigits? (← mark? '-' r)
  let (day, r) ← twoDigits? (← mark? '-' r)
  let c :: r := r | none
  if c = 'T' ∨ c = 't' ∨ c = ' ' then
    let (hour, r) ← twoDigits? r
    let (minute, r) ← twoDigits? (← mark? ':' r)
    let (second, r) ← twoDigits? (← mark? ':' r)
    let (nanos, r) ← nanos? r
    let (offset, r) ← offset? (trimStart r)
    if trimStart r = [] ∧ -262143 ≤ year ∧ year ≤ 262142 then
      let t ← ofDateTime? year month day hour minute second nanos
      some ⟨t.seconds - offset * 60, t.nanos⟩
    else none
  else none

/-! ### Ages -/

/-- Seconds since the beginning of the day. -/
def ofDay (t : Instant) : Int := t.seconds - Int.fdiv t.seconds 86400 * 86400

/-- The second by which the count of seconds is short where one of two instants lies in a leap second
and the other later in a day. -/
def leapAdjustment (now start : Instant) : Int :=
  if start.ofDay < now.ofDay then (if 1000000000 ≤ start.nanos then 1 else 0)
  else if now.ofDay < start.ofDay then (if 1000000000 ≤ now.nanos then -1 else 0)
  else 0

/-- The time from one instant to a later one; nothing if it is not later. -/
def since (now start : Instant) : Span :=
  let seconds := now.seconds - start.seconds + leapAdjustment now start
  let nanos := seconds * 1000000000 + ((now.nanos : Int) - start.nanos)
  if nanos ≤ 0 then ⟨0, 0⟩ else ⟨nanos.toNat / 1000000000, nanos.toNat % 1000000000⟩

example : (read? "2023-03-01T00:30:00+01:00").map text = some "2023-02-28T23:30:00Z" := by decide +kernel
example : (read? "1969-12-31T23:59:59.000001Z").map text = some "1969-12-31T23:59:59.000001Z" := by
  decide +kernel
example : read? "2023-02-29T00:00:00Z" = none := by decide +kernel

end Instant

end SchemaQuery

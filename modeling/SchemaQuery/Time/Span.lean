import SchemaQuery.Number.Decimal

/-!
Spans of time in seconds and nanoseconds, and the text of one: the whole part counts the largest unit
that is not zero, the rest follows a point without trailing zeros, and the unit comes last.
-/

namespace SchemaQuery

/-- A length of time of `seconds` seconds and `nanos` nanoseconds. -/
structure Span where
  seconds : Nat
  nanos : Nat
deriving DecidableEq, Repr

namespace Span

/-- The span of some seconds and some nanoseconds, of which there may be more than a second's. -/
def of (seconds nanos : Nat) : Span := ⟨seconds + nanos / 1000000000, nanos % 1000000000⟩

/-- The span of a whole number of seconds. -/
def ofSeconds (n : Nat) : Span := ⟨n, 0⟩

/-- The span of a whole number of milliseconds. -/
def ofMillis (n : Nat) : Span := ⟨n / 1000, n % 1000 * 1000000⟩

/-- The span in nanoseconds. -/
def toNanos (s : Span) : Nat := s.seconds * 1000000000 + s.nanos

/-- `part` as decimal places of a whole that has `places` of them, without trailing zeros, behind a
point if any are left. -/
def fractionText (places part : Nat) : List Char :=
  let ds := Decimal.digits part
  let padded := Decimal.zeros (places - ds.length) ++ ds
  match (padded.reverse.dropWhile (· = '0')).reverse with
  | [] => []
  | kept => '.' :: kept

/-- The span in its largest unit that is not zero: s, ms, µs or ns. -/
def text (s : Span) : String :=
  String.ofList <|
    if 0 < s.seconds then Decimal.digits s.seconds ++ fractionText 9 s.nanos ++ ['s']
    else if 1000000 ≤ s.nanos then
      Decimal.digits (s.nanos / 1000000) ++ fractionText 6 (s.nanos % 1000000) ++ ['m', 's']
    else if 1000 ≤ s.nanos then
      Decimal.digits (s.nanos / 1000) ++ fractionText 3 (s.nanos % 1000) ++ ['µ', 's']
    else Decimal.digits s.nanos ++ ['n', 's']

example : text ⟨1, 500000000⟩ = "1.5s" := by decide
example : text ⟨0, 1500⟩ = "1.5µs" := by decide
example : text ⟨0, 0⟩ = "0ns" := by decide

end Span

end SchemaQuery

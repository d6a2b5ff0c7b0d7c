import SchemaQuery.Text.Word
import SchemaQuery.Time.Instant
import SchemaQuery.Toml.Node

/-!
Numbers, truth values and moments of TOML. Each is a run of characters that has to be one as a whole.
Digits may be divided by single underscores; an integer fits 64 bits with a sign; a date has to be one
of the calendar.
-/

namespace SchemaQuery.Toml

open Text

/-- Whether a run of characters ends before this one. -/
def endsScalar (c : Char) : Bool :=
  c = ' ' || c = '\t' || c = '\n' || c = '\r' || c = ',' || c = '#' || c = ']' || c = '}'

/-! ### Numbers -/

/-- The digits of a run, without the underscores that divide them: at least one digit, and underscores
only between two digits. -/
def digitRun? (isDigit : Char → Bool) : List Char → Option (List Char)
  | [] => none
  | [c] => if isDigit c then some [c] else none
  | c :: d :: r =>
    if isDigit c then
      if d = '_' then (digitRun? isDigit r).map (c :: ·) else (digitRun? isDigit (d :: r)).map (c :: ·)
    else none

/-- The number that digits of a base stand for. -/
def inBase (base : Nat) (ds : List Char) : Nat :=
  ds.foldl (fun n d => base * n + (hexDigit? d).getD 0) 0

/-- A number as an integer, if it fits. -/
def int64? (n : Int) : Option Node :=
  if Int64.minValue.toInt ≤ n ∧ n ≤ Int64.maxValue.toInt then some (.integer (Int64.ofInt n)) else none

/-- The sign in front of a run, and the rest. -/
def signed : List Char → Bool × List Char
  | '-' :: r => (true, r)
  | '+' :: r => (false, r)
  | r => (false, r)

/-- Digits of the decimal system without a leading zero. -/
def wholeDigits? (s : List Char) : Option (List Char) :=
  (digitRun? Char.isDigit s).filter fun ds => ds = ['0'] || ds.head? ≠ some '0'

/-- An integer. -/
def integer? (s : List Char) : Option Node :=
  match s with
  | '0' :: 'x' :: r => (digitRun? (fun c => (hexDigit? c).isSome) r).bind fun ds => int64? (inBase 16 ds)
  | '0' :: 'o' :: r => (digitRun? (fun c => '0' ≤ c && c ≤ '7') r).bind fun ds => int64? (inBase 8 ds)
  | '0' :: 'b' :: r => (digitRun? (fun c => c = '0' || c = '1') r).bind fun ds => int64? (inBase 2 ds)
  | s =>
    let (negative, r) := signed s
    (wholeDigits? r).bind fun ds =>
      int64? (if negative then -(Decimal.ofDigits ds : Int) else Decimal.ofDigits ds)

/-- The exponent of a float behind its letter. -/
def exponent? (s : List Char) : Option Int :=
  let (negative, r) := signed s
  (digitRun? Char.isDigit r).map fun ds =>
    if negative then -(Decimal.ofDigits ds : Int) else Decimal.ofDigits ds

/-- The nearest binary number to a decimal. Only towards the negative side it may be infinite. -/
def nearest? (d : Decimal) : Option Binary64 :=
  match Finite64.ofDecimal? d with
  | some x => some (.finite x)
  | none => if d.negative then some (.infinite true) else none

/-- A float with digits: it has a point, an exponent or both. -/
def decimalFloat? (s : List Char) : Option Binary64 := do
  let (negative, r) := signed s
  let mantissa := r.takeWhile fun c => c ≠ 'e' && c ≠ 'E'
  let power := (r.dropWhile fun c => c ≠ 'e' && c ≠ 'E').drop 1
  let hasPower := mantissa.length < r.length
  let exponent ← if hasPower then exponent? power else some 0
  let whole ← wholeDigits? (mantissa.takeWhile (· ≠ '.'))
  let places ← match mantissa.dropWhile (· ≠ '.') with
    | [] => if hasPower then some [] else none
    | _ :: places => digitRun? Char.isDigit places
  nearest? ⟨negative, Decimal.ofDigits (whole ++ places), exponent - places.length⟩

/-- A float. -/
def float? (s : List Char) : Option Binary64 :=
  let (negative, r) := signed s
  if r = ['i', 'n', 'f'] then some (.infinite negative)
  else if r = ['n', 'a', 'n'] then some .notANumber
  else decimalFloat? s

/-! ### Moments -/

/-- Whether a text is a date. -/
def isDate : List Char → Bool
  | [y₁, y₂, y₃, y₄, '-', m₁, m₂, '-', d₁, d₂] =>
    let year := Decimal.ofDigits [y₁, y₂, y₃, y₄]
    let month := Decimal.ofDigits [m₁, m₂]
    let day := Decimal.ofDigits [d₁, d₂]
    [y₁, y₂, y₃, y₄, m₁, m₂, d₁, d₂].all Char.isDigit
      && 1 ≤ month && month ≤ 12 && 1 ≤ day && day ≤ Instant.monthLength year month
  | _ => false

/-- A fraction of a second behind its point: at most nine digits, without trailing zeros. -/
def fractionText? (s : List Char) : Option (List Char) :=
  if s ≠ [] ∧ s.all Char.isDigit then
    match ((s.take 9).reverse.dropWhile (· = '0')).reverse with
    | [] => some []
    | kept => some ('.' :: kept)
  else none

/-- Hours and minutes. -/
def isClock : List Char → Bool
  | [h₁, h₂, ':', m₁, m₂] =>
    [h₁, h₂, m₁, m₂].all Char.isDigit && Decimal.ofDigits [h₁, h₂] < 24 && Decimal.ofDigits [m₁, m₂] < 60
  | _ => false

/-- The standard text of a time of day. -/
def timeText? (s : List Char) : Option (List Char) :=
  match s.drop 5 with
  | ':' :: s₁ :: s₂ :: r =>
    if isClock (s.take 5) ∧ s₁.isDigit ∧ s₂.isDigit ∧ Decimal.ofDigits [s₁, s₂] ≤ 60 then
      match r with
      | [] => some (s.take 8)
      | '.' :: places => (fractionText? places).map (s.take 8 ++ ·)
      | _ => none
    else none
  | _ => none

/-- The standard text of an offset. An offset of nothing has a plus sign. -/
def offsetText? : List Char → Option (List Char)
  | [c] => if c = 'Z' ∨ c = 'z' then some ['Z'] else none
  | c :: clock =>
    if isClock clock ∧ (c = '+' ∨ c = '-') then
      some ((if clock = "00:00".toList then '+' else c) :: clock)
    else none
  | [] => none

/-- The standard text of a time of day, with an offset or without one. -/
def zonedTimeText? (s : List Char) : Option (List Char) :=
  let isOffset := fun c => c = 'Z' || c = 'z' || c = '+' || c = '-'
  match s.dropWhile fun c => !isOffset c with
  | [] => timeText? s
  | offset => do
    let time ← timeText? (s.takeWhile fun c => !isOffset c)
    return time ++ (← offsetText? offset)

/-- The standard text of a moment: a date, a date with a time, or a time alone. -/
def momentText? (s : List Char) : Option (List Char) :=
  if isDate (s.take 10) then
    match s.drop 10 with
    | [] => some s
    | c :: time =>
      if c = 'T' ∨ c = 't' ∨ c = ' ' then (zonedTimeText? time).map (s.take 10 ++ 'T' :: ·) else none
  else timeText? s

/-! ### Runs -/

/-- The run at the front of a text. A date goes on behind one space if digits follow. -/
def run (s : List Char) : List Char :=
  let first := s.takeWhile (!endsScalar ·)
  match s.drop first.length with
  | ' ' :: c :: r =>
    if isDate first ∧ c.isDigit then first ++ ' ' :: (c :: r).takeWhile (!endsScalar ·) else first
  | _ => first

/-- The value that a run stands for. -/
def scalar? (run : List Char) : Option Node :=
  if run = "true".toList then some (.bool true)
  else if run = "false".toList then some (.bool false)
  else match momentText? run with
    | some text => some (.moment (String.ofList text))
    | none => (integer? run).or ((float? run).map .float)

example : scalar? "1_000".toList matches some (.integer 1000) := by decide
example : scalar? "0x1F".toList matches some (.integer 31) := by decide
example : scalar? "01".toList matches none := by decide
example : momentText? "1979-05-27 07:32:00.500-00:00".toList = some "1979-05-27T07:32:00.5+00:00".toList := by
  decide
example : momentText? "1979-02-29".toList = none := by decide

end SchemaQuery.Toml

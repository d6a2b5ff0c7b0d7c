import SchemaQuery.Number.Binary64

/-!
The shortest decimal of a binary number: of all decimals that are read back as the same number, one
with the fewest digits, and of those the nearest to it. On each decimal grid only the two neighbours
of the number need to be looked at, because if any point of the grid reads back, then so does one of
them.
-/

namespace SchemaQuery

/-- Where a number lies exactly between its two neighbours: the greater one, or the even one. -/
inductive Tie where
  | up
  | even
deriving DecidableEq, Repr

namespace Finite64

/-- The magnitude in steps of 10 ^ `k`, as a ratio. -/
def steps (x : Finite64) (k : Int) : Nat × Nat :=
  if 0 ≤ k then (x.units, Nat.pow 2 1074 * Nat.pow 10 k.toNat)
  else (x.units * Nat.pow 10 (-k).toNat, Nat.pow 2 1074)

/-- Whether a coefficient on the grid of 10 ^ `k` reads back as the number. -/
def readsBack (x : Finite64) (k : Int) (coefficient : Nat) : Bool :=
  ofDecimal? ⟨x.negative, coefficient, k⟩ == some x

/-- The nearest neighbour on the grid of 10 ^ `k` that reads back as the number. -/
def neighbour? (tie : Tie) (x : Finite64) (k : Int) : Option Nat :=
  let (num, den) := x.steps k
  let low := num / den
  let rest := num % den
  match x.readsBack k low, x.readsBack k (low + 1) with
  | true, true =>
    if 2 * rest < den then some low
    else if den < 2 * rest then some (low + 1)
    else match tie with
      | .up => some (low + 1)
      | .even => some (low + low % 2)
  | true, false => some low
  | false, true => some (low + 1)
  | false, false => none

/-- The place of the first digit: the magnitude is below 10 ^ `place` and not below a tenth of it.
Scaled by 10 ^ 400 every number other than zero has a whole part. -/
def place (x : Finite64) : Int :=
  ((Decimal.digits (x.units * Nat.pow 10 400 / Nat.pow 2 1074)).length : Int) - 400

/-- The number itself, which has a finite decimal because 2 divides 10. -/
def exact (x : Finite64) : Decimal := ⟨x.negative, x.units * Nat.pow 5 1074, -1074⟩

/-- The shortest decimal that reads back. Seventeen digits always suffice; should none do, the number
itself stands in. -/
def shortest (tie : Tie) (x : Finite64) : Decimal :=
  if x.units = 0 then ⟨x.negative, 0, 0⟩
  else
    let grids := (List.range 17).map fun n => x.place - (n + 1 : Nat)
    match grids.findSome? fun k => (x.neighbour? tie k).map (Decimal.mk x.negative · k) with
    | some d => d.strip
    | none => x.exact

/-- The number in a query: all places, never an exponent, a tie going up. -/
def plainText (x : Finite64) : String := String.ofList (x.shortest .up).plain

/-- The number in a document: with a point or an exponent, a tie going to the even digit. -/
def documentText (x : Finite64) : String := String.ofList (x.shortest .even).compact

end Finite64

end SchemaQuery

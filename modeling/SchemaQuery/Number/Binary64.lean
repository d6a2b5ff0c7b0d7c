import SchemaQuery.Number.Decimal

/-!
Binary numbers of 64 bits in exact integer arithmetic. Every finite one is a whole number of units of
2 ^ -1074, the least positive of them, so that rounding a decimal is a question about two natural
numbers: how many units lie nearest, an exact half going to the even neighbour.
-/

namespace SchemaQuery

/-- A finite binary number: ± `significand` · 2 ^ `exponent` units of 2 ^ -1074. -/
structure Finite64 where
  negative : Bool
  significand : Nat
  exponent : Nat
  /-- The significand has at most 53 bits. -/
  significand_lt : significand < Nat.pow 2 53
  /-- The greatest finite number has this exponent. -/
  exponent_le : exponent ≤ 2045
  /-- Only the smallest numbers leave the leading bit unset, so each number is written in one way. -/
  normal : exponent = 0 ∨ Nat.pow 2 52 ≤ significand
deriving DecidableEq, Repr

/-- A binary number of 64 bits: finite, infinite or none at all. -/
inductive Binary64 where
  | finite (value : Finite64)
  | infinite (negative : Bool)
  | notANumber
deriving DecidableEq, Repr

namespace Finite64

/-- Zero, of either sign. -/
def zero (negative : Bool) : Finite64 := ⟨negative, 0, 0, by decide, by decide, .inl rfl⟩

instance : Inhabited Finite64 := ⟨zero false⟩

/-- The magnitude in units of 2 ^ -1074. -/
def units (x : Finite64) : Nat := x.significand * Nat.pow 2 x.exponent

/-- `num / den` rounded to the nearest whole number, a half to the even one. -/
def roundEven (num den : Nat) : Nat :=
  let q := num / den
  let r := num % den
  if 2 * r < den then q else if den < 2 * r then q + 1 else q + q % 2

/-- The number with these parts, if they are those of a number. -/
def ofParts? (negative : Bool) (significand exponent : Nat) : Option Finite64 :=
  if h : significand < Nat.pow 2 53 ∧ exponent ≤ 2045 ∧
      (exponent = 0 ∨ Nat.pow 2 52 ≤ significand) then
    some ⟨negative, significand, exponent, h.1, h.2.1, h.2.2⟩
  else none

/-- The number nearest to `num / den` units; none if that lies past the greatest finite number. -/
def nearest? (negative : Bool) (num den : Nat) : Option Finite64 :=
  let exponent := Nat.log2 (num / den) - 52
  let significand := roundEven num (den * Nat.pow 2 exponent)
  if significand = Nat.pow 2 53 then ofParts? negative (Nat.pow 2 52) (exponent + 1)
  else ofParts? negative significand exponent

/-- The number nearest to a decimal; none if the decimal is too great. A decimal far outside the
range is settled by the place of its first digit alone. -/
def ofDecimal? (d : Decimal) : Option Finite64 :=
  let place := ((Decimal.digits d.coefficient).length : Int) + d.exponent
  if d.coefficient = 0 ∨ place < -400 then some (zero d.negative)
  else if 400 < place then none
  else if 0 ≤ d.exponent then
    nearest? d.negative (d.coefficient * Nat.pow 10 d.exponent.toNat * Nat.pow 2 1074) 1
  else nearest? d.negative (d.coefficient * Nat.pow 2 1074) (Nat.pow 10 (-d.exponent).toNat)

end Finite64

end SchemaQuery

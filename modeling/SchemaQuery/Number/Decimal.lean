/-!
Decimal numbers as a sign, a coefficient and a power of ten, and the two ways in which this library
writes them. The plain form shows every place and never an exponent, which is what query text needs.
The compact form, which documents use, turns to an exponent once the decimal point lies far from the
digits.
-/

namespace SchemaQuery

/-- The number ± `coefficient` · 10 ^ `exponent`. -/
structure Decimal where
  negative : Bool
  coefficient : Nat
  exponent : Int
deriving DecidableEq, Repr

namespace Decimal

/-- The decimal digits of a natural number, without leading zeros. -/
def digits (n : Nat) : List Char := Nat.toDigits 10 n

/-- The value of a run of decimal digits. -/
def ofDigits (ds : List Char) : Nat := ds.foldl (fun n d => 10 * n + (d.toNat - '0'.toNat)) 0

/-- A whole number as it is written: a sign only before a negative one. -/
def integerText (n : Int) : List Char := if n < 0 then '-' :: digits n.natAbs else digits n.natAbs

/-- Divides zeros off the end of the coefficient, at most `fuel` of them. -/
def stripFrom : Nat → Decimal → Decimal
  | 0, d => d
  | fuel + 1, d =>
    if d.coefficient ≠ 0 ∧ d.coefficient % 10 = 0 then
      stripFrom fuel ⟨d.negative, d.coefficient / 10, d.exponent + 1⟩
    else d

/-- The same number with a coefficient that does not end in zero; each step takes one digit off, so
the digits of the coefficient bound the steps. -/
def strip (d : Decimal) : Decimal := stripFrom (digits d.coefficient).length d

/-- The sign as it is written. -/
def sign (d : Decimal) : List Char := if d.negative then ['-'] else []

/-- `n` zeros. -/
def zeros (n : Nat) : List Char := List.replicate n '0'

/-- All places of the number, with a point only where there are digits behind it. -/
def plain (d : Decimal) : List Char :=
  let ds := digits d.coefficient
  if 0 ≤ d.exponent then
    d.sign ++ (if d.coefficient = 0 then ['0'] else ds ++ zeros d.exponent.toNat)
  else
    let places := (-d.exponent).toNat
    if places < ds.length then
      d.sign ++ ds.take (ds.length - places) ++ '.' :: ds.drop (ds.length - places)
    else d.sign ++ '0' :: '.' :: zeros (places - ds.length) ++ ds

/-- The number with a point or an exponent, so that it never looks like an integer. The point may
stand up to sixteen places behind the first digit or up to five places before it; further out the
number is written with one digit before the point and an exponent. -/
def compact (d : Decimal) : List Char :=
  let ds := digits d.coefficient
  let point := (ds.length : Int) + d.exponent
  if d.coefficient = 0 then d.sign ++ ['0', '.', '0']
  else if 0 ≤ d.exponent ∧ point ≤ 16 then
    d.sign ++ ds ++ zeros d.exponent.toNat ++ ['.', '0']
  else if 0 < point ∧ point ≤ 16 then
    d.sign ++ ds.take point.toNat ++ '.' :: ds.drop point.toNat
  else if -5 < point ∧ point ≤ 0 then
    d.sign ++ '0' :: '.' :: zeros (-point).toNat ++ ds
  else
    d.sign ++ ds.take 1 ++ (if ds.length = 1 then [] else '.' :: ds.drop 1)
      ++ 'e' :: integerText (point - 1)

example : plain ⟨true, 125, -2⟩ = "-1.25".toList := by decide
example : plain ⟨false, 1, 3⟩ = "1000".toList := by decide
example : plain ⟨false, 5, -4⟩ = "0.0005".toList := by decide
example : compact ⟨false, 1, 0⟩ = "1.0".toList := by decide
example : compact ⟨false, 15, 20⟩ = "1.5e21".toList := by decide
example : compact ⟨true, 1, -7⟩ = "-1e-7".toList := by decide

end Decimal

end SchemaQuery

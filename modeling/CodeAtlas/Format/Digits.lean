import CodeAtlas.Text.Basic

/-!
# Digits and the size of a number

Digits in bases up to sixteen, the number they stand for, and whether a decimal number is finite as
a double. A number of 309 digits before its point is the only one whose size needs a closer look.
-/

namespace CodeAtlas.Digits

/-- The value of a digit in bases up to sixteen. -/
def value? (c : Char) : Option Nat :=
  if '0' ≤ c && c ≤ '9' then some (c.toNat - 48)
  else if 'a' ≤ c && c ≤ 'f' then some (c.toNat - 87)
  else if 'A' ≤ c && c ≤ 'F' then some (c.toNat - 55)
  else none

/-- Is the character a digit of the base? -/
def isDigitOf (base : Nat) (c : Char) : Bool := (value? c).any (· < base)

/-- The number that digits of a base stand for. -/
def valueOf (base : Nat) (digits : List Char) : Nat :=
  digits.foldl (fun n c => n * base + (value? c).getD 0) 0

/-- The least number that rounds to infinity as a double. -/
def infinity : Nat := (Nat.pow 2 54 - 1) * Nat.pow 2 970

/-- Does the number with the given decimal digits, times a power of ten, round to a finite
double? -/
def isFinite (digits : List Char) (exponent : Int) : Bool :=
  let significant := digits.dropWhile (· == '0')
  let order := exponent + significant.length
  if significant.isEmpty || order < 309 then true
  else if order > 309 then false
  else if 0 ≤ exponent then valueOf 10 significant * Nat.pow 10 exponent.toNat < infinity
  else valueOf 10 significant < infinity * Nat.pow 10 (-exponent).toNat

end CodeAtlas.Digits

import CodeAtlas.Format.Digits
import CodeAtlas.Format.Toml.Basic

/-!
# Numbers of TOML

Digits may be grouped by single underscores; a decimal integer has no leading zero. Integers fit
into 64 bits with a sign, and a number with a fraction or an exponent has to be finite as a
double.
-/

namespace CodeAtlas.Toml

open Digits

/-- Read grouped digits: the digits without underscores, and the rest. `first` says that nothing
has been read, `zero` that the number starts with a zero, and `gap` that an underscore came last. -/
def scanDigits (base : Nat) (zerosAllowed : Bool) :
    (first zero gap : Bool) → List Char → Option (List Char × List Char)
  | first, _, gap, [] => if first || gap then none else some ([], [])
  | first, zero, gap, c :: s =>
    if c == '0' && first then
      (scanDigits base zerosAllowed false true gap s).map fun (ds, rest) => (c :: ds, rest)
    else if isDigitOf base c then
      if !first && zero && !zerosAllowed then none
      else
        (scanDigits base zerosAllowed false zero false s).map fun (ds, rest) => (c :: ds, rest)
    else if c == '_' && first then none
    else if c == '_' && !gap then scanDigits base zerosAllowed false zero true s
    else if first || gap then none
    else some ([], c :: s)

/-- Take a sign off the front: is it negative, and what follows. -/
def takeSign : List Char → Bool × List Char
  | '-' :: s => (true, s)
  | '+' :: s => (false, s)
  | s => (false, s)

/-- An integer of a base that fits into 64 bits. -/
def integer? (base : Nat) (s : List Char) : Option Value := do
  let (negative, body) := if base = 10 then takeSign s else (false, s)
  let (digits, rest) ← scanDigits base (base != 10) true false false body
  if !rest.isEmpty then none
  let n := valueOf base digits
  if negative then if n ≤ Nat.pow 2 63 then some (.integer (-(n : Int))) else none
  else if n < Nat.pow 2 63 then some (.integer n) else none

/-- A number with a fraction or an exponent, from its digits and the digits of its exponent. -/
def float? (whole fraction : List Char) (negativeExponent : Bool) (exponent : List Char) :
    Option Value :=
  let e : Int := valueOf 10 exponent
  let e := (if negativeExponent then -e else e) - fraction.length
  if isFinite (whole ++ fraction) e then some .float else none

end CodeAtlas.Toml

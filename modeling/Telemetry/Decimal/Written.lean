import Telemetry.Decimal.Shortest
import Telemetry.Text.Numeral

namespace Telemetry.Decimal

open Text

/-- The choices of a written form: the smallest power of ten that is written without an exponent,
whether an exponent has a plus sign, which digits are taken where two are equally near, and the
texts of what is not finite. -/
structure Style where
  least : Int
  plus : Bool
  ties : TieRule
  infinite : List Char
  notANumber : List Char

def greatest : Int := 16

/-- For people: without an exponent from a ten-thousandth on. -/
def plain : Style := ⟨-4, false, .greater, "inf".toList, "NaN".toList⟩

/-- For JSON: without an exponent from a hundred-thousandth on, and null for what is not finite. -/
def json : Style := ⟨-5, true, .even, "null".toList, "null".toList⟩

def positional (digits : List Char) (point : Int) : List Char :=
  if point ≤ 0 then '0' :: '.' :: List.replicate (-point).toNat '0' ++ digits
  else if (digits.length : Int) ≤ point then
    digits ++ List.replicate (point.toNat - digits.length) '0' ++ ['.', '0']
  else digits.take point.toNat ++ '.' :: digits.drop point.toNat

def integer (n : Int) : List Char :=
  if n < 0 then '-' :: Numeral.ofNat n.natAbs else Numeral.ofNat n.natAbs

def explicit (plus : Bool) (n : Int) : List Char :=
  if plus ∧ 0 ≤ n then '+' :: integer n else integer n

def exponential (plus : Bool) (digits : List Char) (power : Int) : List Char :=
  (match digits with
    | [] => []
    | [d] => [d]
    | d :: more => d :: '.' :: more) ++ 'e' :: explicit plus power

def signed (negative : Bool) (s : List Char) : List Char := if negative then '-' :: s else s

def Style.write (style : Style) : Double → List Char
  | .notANumber => style.notANumber
  | .infinite negative =>
    if style.infinite = style.notANumber then style.infinite else signed negative style.infinite
  | .finite negative 0 _ => signed negative "0.0".toList
  | .finite negative significand exponent =>
    let s := shortest style.ties significand exponent
    let digits := Numeral.ofNat s.digits
    let power := s.exponent + digits.length - 1
    signed negative
      (if style.least ≤ power ∧ power < greatest then positional digits (power + 1)
       else exponential style.plus digits power)

end Telemetry.Decimal

namespace Telemetry.Decimal

/-- A double of 64 bits by its meaning. A finite one is `significand` times two to the power of
`exponent`. -/
inductive Double
  | finite (negative : Bool) (significand : Nat) (exponent : Int)
  | infinite (negative : Bool)
  | notANumber
  deriving DecidableEq, Repr

namespace Double

def implicitBit : Nat := 1 <<< 52

def ofBits (bits : UInt64) : Double :=
  let n := bits.toNat
  let negative := n.testBit 63
  let biased : Nat := n >>> 52 % 2048
  let fraction := n % implicitBit
  if biased = 2047 then (if fraction = 0 then infinite negative else notANumber)
  else if biased = 0 then finite negative fraction (-1074)
  else finite negative (implicitBit + fraction) ((biased : Int) - 1075)

end Double

inductive TieRule
  | even
  | greater
  deriving DecidableEq, Repr

def TieRule.lower (rule : TieRule) (c : Nat) : Bool :=
  match rule with
  | even => c % 2 = 0
  | greater => false

structure Scaled where
  digits : Nat
  exponent : Int
  deriving DecidableEq, Repr

/-- The reals that read as one double, over a common denominator: the double itself, the two ends,
and whether the ends belong to them. -/
structure Interval where
  value : Nat
  low : Nat
  high : Nat
  unit : Nat
  closed : Bool
  deriving DecidableEq, Repr

namespace Interval

def ofDouble (significand : Nat) (exponent : Int) : Interval :=
  let gap := if significand = Double.implicitBit ∧ -1074 < exponent then 1 else 2
  let scale := Nat.pow 2 (exponent - 2).toNat
  { value := 4 * significand * scale
    low := (4 * significand - gap) * scale
    high := (4 * significand + 2) * scale
    unit := Nat.pow 2 (2 - exponent).toNat
    closed := significand % 2 = 0 }

def inUnits (i : Interval) (k : Int) : Interval :=
  let up := Nat.pow 10 (-k).toNat
  { i with
    value := i.value * up
    low := i.low * up
    high := i.high * up
    unit := i.unit * Nat.pow 10 k.toNat }

def holds (i : Interval) (c : Nat) : Bool :=
  let x := c * i.unit
  if i.closed then i.low ≤ x ∧ x ≤ i.high else i.low < x ∧ x < i.high

def neighbour? (ties : TieRule) (i : Interval) : Option Nat :=
  let c := i.value / i.unit
  let below := i.value - c * i.unit
  let above := (c + 1) * i.unit - i.value
  let lower := 0 < c && i.holds c
  let upper := i.holds (c + 1)
  if lower && (!upper || below < above || (below = above && ties.lower c)) then some c
  else if upper then some (c + 1)
  else none

end Interval

def search (ties : TieRule) (i : Interval) (k : Int) : Nat → Scaled
  | 0 => ⟨0, 0⟩
  | more + 1 =>
    match (i.inUnits k).neighbour? ties with
    | some c => ⟨c, k⟩
    | none => search ties i (k - 1) more

/-- The shortest decimal of a positive double. -/
def shortest (ties : TieRule) (significand : Nat) (exponent : Int) : Scaled :=
  search ties (.ofDouble significand exponent) 309 700

end Telemetry.Decimal

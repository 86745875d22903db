import Telemetry.Calendar.Date
import Telemetry.Text.Blank
import Telemetry.Text.Numeral

namespace Telemetry.Calendar

open Text

inductive Period
  | day
  | month
  deriving DecidableEq, Repr

def Period.name : Period → String
  | day => "day"
  | month => "month"

def yearText (year : Int) : List Char :=
  if 0 ≤ year ∧ year ≤ 9999 then (Numeral.ofNat year.toNat).leftpad 4 '0'
  else (if year < 0 then '-' else '+') :: (Numeral.ofNat year.natAbs).leftpad 4 '0'

def twoDigits (n : Nat) : List Char := (Numeral.ofNat n).leftpad 2 '0'

def monthKey (d : Date) : List Char := yearText d.year ++ '-' :: twoDigits d.month

def dayKey (d : Date) : List Char := monthKey d ++ '-' :: twoDigits d.day

def Period.key : Period → Date → List Char
  | day, d => dayKey d
  | month, d => monthKey d

def readYear? (s : List Char) : Option (Int × List Char) :=
  match trimStart s with
  | '-' :: rest => (Numeral.leading? rest.length rest).map fun (n, r) => (-(n : Int), r)
  | '+' :: rest => (Numeral.leading? rest.length rest).map fun (n, r) => ((n : Int), r)
  | rest => (Numeral.leading? 4 rest).map fun (n, r) => ((n : Int), r)

def readPart? : List Char → Option (Nat × List Char)
  | '-' :: rest => Numeral.leading? 2 (trimStart rest)
  | _ => none

def Date.parse? (s : List Char) : Option Date := do
  let (year, s) ← readYear? s
  let (month, s) ← readPart? s
  let (day, s) ← readPart? s
  if s.isEmpty then Date.of? year month day else none

/-- The period that a key denotes: a date denotes its day; what becomes a date by the addition of
a first day denotes a month. -/
def Period.ofKey? (key : List Char) : Option Period :=
  if (Date.parse? key).isSome then some day
  else if (Date.parse? (key ++ "-01".toList)).isSome then some month
  else none

end Telemetry.Calendar

import Telemetry.Tally.Row

namespace Telemetry.Viewer

open Tally

/-- The rows under a key. Their sum has no bound here; up to 2 ^ 32 rows it has 64 bits. -/
structure Total where
  key : List Char
  rows : Nat
  sum : Nat
  deriving DecidableEq, Repr

def countRow (key : List Char) (counter : Nat) : List Total → List Total
  | [] => [⟨key, 1, counter⟩]
  | t :: rest =>
    if key = t.key then ⟨key, t.rows + 1, t.sum + counter⟩ :: rest
    else if key < t.key then ⟨key, 1, counter⟩ :: t :: rest
    else t :: countRow key counter rest

def totals (key : Row → List Char) (rows : List Row) : List Total :=
  rows.foldl (fun ts r => countRow (key r) r.counter.toNat ts) []

/-- The name of the period that the bucket of a row denotes. -/
def periodLabel (r : Row) : List Char :=
  match r.period with
  | some p => p.name.toList
  | none => "unknown".toList

def periodTotals (rows : List Row) : List Total := totals periodLabel rows

def eventTotals (rows : List Row) : List Total := totals (fun r => r.event.toChars) rows

end Telemetry.Viewer

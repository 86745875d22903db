import Telemetry.Event.Record

namespace Telemetry.Event

def maxRecordCost : Nat := 100000

def defaultMaxBuffered : Nat := 100000

structure Buffer where
  limit : Nat
  records : List Record
  bytes : Nat
  deriving DecidableEq, Repr

def totalCost (rs : List Record) : Nat := sumOf Record.cost rs

/-- The longest run of records from the front whose total cost, added to `used`, stays within a
limit. No limit takes all. -/
def fitting (limit : Option Nat) (used : Nat) : List Record → List Record
  | [] => []
  | r :: rest =>
    if limit.all (used + r.cost ≤ ·) then r :: fitting limit (used + r.cost) rest else []

namespace Buffer

def empty (limit : Nat) : Buffer := ⟨limit, [], 0⟩

def accepts (b : Buffer) (r : Record) : Bool :=
  r.cost ≤ maxRecordCost ∧ b.bytes + r.cost ≤ b.limit

/-- Appends a record that both bounds allow. -/
def push (b : Buffer) (r : Record) : Buffer :=
  if b.accepts r then { b with records := b.records ++ [r], bytes := b.bytes + r.cost } else b

/-- Moves records from the front out of the buffer, oldest first. -/
def take (b : Buffer) (limit : Option Nat) : List Record × Buffer :=
  let taken := fitting limit 0 b.records
  (taken, { b with records := b.records.drop taken.length, bytes := b.bytes - totalCost taken })

def clear (b : Buffer) : Buffer := { b with records := [], bytes := 0 }

end Buffer

end Telemetry.Event

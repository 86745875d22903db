import Telemetry.StorageError
import Telemetry.Tally.Row

namespace Telemetry.Tally

open Calendar

abbrev Table := List Stored

namespace Table

/-- Row numbers follow the largest in the table; that of a removed last row is used again. -/
def nextId (t : Table) : Nat := (t.map Stored.id).foldl max 0 + 1

def add (t : Table) (key : Key) (amount : Int) : Table :=
  if t.any (·.key = key) then
    t.map fun r => if r.key = key then { r with counter := plus r.counter amount } else r
  else t ++ [⟨t.nextId, key, amount⟩]

/-- An increment counts against its day and against its month. -/
def count (t : Table) (i : Increment) : Table :=
  (t.add i.dayKeyOf i.amount.toNat).add i.monthKeyOf i.amount.toNat

def commit (t : Table) (is : List Increment) : Table := is.foldl count t

def subtract (t : Table) (r : Row) : Table :=
  t.map fun s => if s.id = r.id then { s with counter := minus s.counter r.counter.toNat } else s

/-- Subtracts the counters of reported rows and removes every row with nothing left. -/
def settle (t : Table) (rows : List Row) : Table :=
  (rows.foldl subtract t).filter fun s => 0 < s.counter

def sorted (t : Table) : Table := t.mergeSort fun a b => a.key.le b.key

/-- The reports of rows in order. One row with a counter out of range fails them all; rows whose
payload cannot be decoded are left out. -/
def report (t : Table) : Except StorageError (List Row) :=
  if t.all Stored.readable then .ok (t.sorted.filterMap Stored.report?)
  else .error .readTallyRow

end Table

def measured (key : List Char) : Nat := (key.takeWhile (· ≠ '\x00')).length

/-- A stored bucket that closed before the one with the key `current`: a key of the same length
that comes earlier. -/
def closedBefore (current bucket : List Char) : Bool :=
  measured bucket = measured current ∧ bucket < current

structure Store where
  table : Option Table
  /-- Whether the statement of a settlement is prepared. -/
  prepared : Bool
  deriving DecidableEq, Repr

namespace Store

def opened (table : Option Table) : Store := ⟨some (table.getD []), false⟩

def commit (s : Store) (is : List Increment) : Except StorageError Store :=
  if is.isEmpty then .ok s
  else match s.table with
    | none => .error .upsertTally
    | some t => .ok { s with table := some (t.commit is) }

def query (s : Store) (keep : Stored → Bool) : Except StorageError (List Row) :=
  match s.table with
  | none => .error .prepareTallyQuery
  | some t => Table.report (t.filter keep)

def readAll (s : Store) : Except StorageError (List Row) := s.query fun _ => true

def readBucket (s : Store) (p : Period) (d : Date) : Except StorageError (List Row) :=
  s.query fun r => r.key.bucket = p.key d

/-- The rows of the buckets that closed before the bucket of a date. -/
def rowsBefore (s : Store) (p : Period) (d : Date) : Except StorageError (List Row) :=
  s.query fun r => closedBefore (p.key d) r.key.bucket

/-- With the table gone, a statement that is prepared fails at the first row. -/
def settle (s : Store) (rows : List Row) : Except StorageError Store :=
  match rows with
  | [] => .ok s
  | first :: _ =>
    match s.table with
    | none => .error (if s.prepared then .settleRow first.id else .prepareSettle)
    | some t => .ok ⟨some (t.settle rows), true⟩

def clear (s : Store) : Except StorageError Store :=
  match s.table with
  | none => .error .clearTally
  | some _ => .ok { s with table := some [] }

def count (s : Store) : Except StorageError Nat :=
  match s.table with
  | none => .error .countTally
  | some t => .ok t.length

def insertRaw? (s : Store) (key : Key) (counter : Int) : Option Store :=
  s.table.bind fun t =>
    if t.any (·.key = key) then none
    else some { s with table := some (t ++ [⟨t.nextId, key, counter⟩]) }

def broken (s : Store) : Store := { s with table := none }

end Store

end Telemetry.Tally

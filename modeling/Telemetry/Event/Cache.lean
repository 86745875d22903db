import Telemetry.Event.Buffer
import Telemetry.StorageError

namespace Telemetry.Event

open Codec

def defaultMaxCached : Nat := 10 * 1024 * 1024

structure CacheRow where
  id : Nat
  blob : Bytes
  deriving DecidableEq, Repr

/-- The rows in order of their numbers, and the number of the next one. -/
structure CacheTable where
  rows : List CacheRow
  nextId : Nat
  deriving DecidableEq, Repr

namespace CacheTable

def empty : CacheTable := ⟨[], 1⟩

def size (t : CacheTable) : Nat := sumOf (fun r => r.blob.length) t.rows

def insert (t : CacheTable) (blob : Bytes) : CacheTable :=
  ⟨t.rows ++ [⟨t.nextId, blob⟩], t.nextId + 1⟩

def delete (t : CacheTable) (ids : List Nat) : CacheTable :=
  { t with rows := t.rows.filter fun r => r.id ∉ ids }

end CacheTable

/-- A record as it was loaded, with its row number and its size in the table. -/
structure Cached where
  id : Nat
  record : Record
  cost : Nat
  deriving DecidableEq, Repr

structure Scan where
  records : List Cached
  corrupt : List Nat
  deriving DecidableEq, Repr

/-- Goes through the rows in order and stops at the first that would take the total size of the
decoded ones past the limit. -/
def scan (limit : Option Nat) (total : Nat) : List CacheRow → Scan
  | [] => ⟨[], []⟩
  | r :: rest =>
    if limit.all (total + r.blob.length ≤ ·) then
      match Record.decoder.decode r.blob with
      | .ok record =>
        let s := scan limit (total + r.blob.length) rest
        ⟨⟨r.id, record, r.blob.length⟩ :: s.records, s.corrupt⟩
      | .error _ =>
        let s := scan limit total rest
        ⟨s.records, r.id :: s.corrupt⟩
    else ⟨[], []⟩

structure Cache where
  limit : Nat
  table : Option CacheTable
  /-- Whether the statement of a removal is prepared. -/
  prepared : Bool
  deriving DecidableEq, Repr

namespace Cache

def opened (limit : Nat) (table : Option CacheTable) : Cache :=
  ⟨limit, some (table.getD .empty), false⟩

/-- Appends the longest run of records from the front that fits the limit, and counts it. Only a table
that is gone makes it fail: a transaction that cannot begin, insert or commit is left out. -/
def store (c : Cache) (records : List Record) : Except StorageError (Nat × Cache) :=
  if records.isEmpty then .ok (0, c)
  else match c.table with
    | none => .error .measureCache
    | some t =>
      let kept := fitting (some c.limit) t.size records
      let t' := kept.foldl (fun t r => t.insert r.encode) t
      .ok (kept.length, { c with table := some t' })

/-- Loads records in order of insertion within a limit, and deletes the rows before its end that
could not be decoded. -/
def load (c : Cache) (limit : Option Nat) : Except StorageError (List Cached × Cache) :=
  match c.table with
  | none => .error .prepareCacheLoad
  | some t =>
    let s := scan limit 0 t.rows
    .ok (s.records, { c with table := some (t.delete s.corrupt) })

def remove (c : Cache) (ids : List Nat) : Except StorageError Cache :=
  if ids.isEmpty then .ok c
  else match c.table with
    | none => .error (if c.prepared then .removeCached else .prepareCacheDelete)
    | some t => .ok { c with table := some (t.delete ids), prepared := true }

def clear (c : Cache) : Except StorageError Cache :=
  match c.table with
  | none => .error .clearCache
  | some t => .ok { c with table := some { t with rows := [] } }

def count (c : Cache) : Except StorageError Nat :=
  match c.table with
  | none => .error .countCache
  | some t => .ok t.rows.length

def insertRaw? (c : Cache) (blob : Bytes) : Option Cache :=
  c.table.map fun t => { c with table := some (t.insert blob) }

def broken (c : Cache) : Cache := { c with table := none }

end Cache

end Telemetry.Event

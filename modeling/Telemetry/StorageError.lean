/-!
Faults of the stores on disk: the step of an operation that failed. What the database or the
operating system says about the fault is not part of it.
-/

namespace Telemetry

inductive StorageError
  | createDirectory
  | createCacheDirectory
  | upsertTally
  | prepareTallyQuery
  | readTallyRow
  | prepareSettle
  | settleRow (id : Nat)
  | clearTally
  | countTally
  | measureCache
  | prepareCacheLoad
  | prepareCacheDelete
  | removeCached
  | clearCache
  | countCache
  deriving DecidableEq, Repr

def StorageError.message : StorageError → String
  | .createDirectory => "Failed to create directory"
  | .createCacheDirectory => "Failed to create persistent cache directory"
  | .upsertTally => "Failed to upsert tally row"
  | .prepareTallyQuery => "Failed to prepare tally query"
  | .readTallyRow => "Failed to read tally row"
  | .prepareSettle => "Failed to prepare settle"
  | .settleRow id => "Failed to settle tally row " ++ toString id
  | .clearTally => "Failed to clear tally"
  | .countTally => "Failed to count tally rows"
  | .measureCache => "Failed to measure event cache"
  | .prepareCacheLoad => "Failed to prepare cache load"
  | .prepareCacheDelete => "Failed to prepare cache delete"
  | .removeCached => "Failed to remove cached record"
  | .clearCache => "Failed to clear event cache"
  | .countCache => "Failed to count cached records"

end Telemetry

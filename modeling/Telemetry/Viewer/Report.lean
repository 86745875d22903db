import Telemetry.Event.Cache
import Telemetry.Tally.Store
import Telemetry.Viewer.Help

namespace Telemetry.Viewer

open Tally Calendar Decimal

structure Outcome where
  lines : List Line
  code : Nat
  deriving DecidableEq, Repr

namespace Outcome

def success (lines : List Line) : Outcome := ⟨lines, 0⟩

def failed (lines : List Line) : Outcome := ⟨lines, 1⟩

def misuse : Outcome := ⟨[], 2⟩

def text (o : Outcome) : List Char := o.lines.flatMap (· ++ ['\n'])

end Outcome

def listingTitle (count : Nat) : Line := "📋 ".toList ++ integer count ++ " tally rows:".toList

def dayTitle (date : Date) : Line := "📅 Day ".toList ++ dayKey date ++ [':']

def monthTitle (date : Date) : Line := "🗓  Month ".toList ++ monthKey date ++ [':']

def pendingTitle (count : Nat) : Line :=
  "📤 ".toList ++ integer count ++ " rows ready for upload:".toList

def listed (title : Line) (format : Format) (rows : List Row) : List Line :=
  title :: [] :: format.lines rows

def pendingRows (tally : Store) (date : Date) : Except StorageError (List Row) := do
  return (← tally.rowsBefore .day date) ++ (← tally.rowsBefore .month date)

def periodLine (t : Total) : Line :=
  (t.key ++ [':']).rightpad 16 ' ' ++ ' ' :: integer t.rows ++ " rows, ".toList ++ integer t.sum
    ++ " total".toList

/-- How many rows there are, in all and by period. -/
def statistics (rows : List Row) : List Line :=
  "📊 Tally Statistics".toList :: [] :: ("Total Rows:      ".toList ++ integer rows.length)
    :: (periodTotals rows).map periodLine

def pendingEvents (count : Nat) : Line := "Pending Events:  ".toList ++ integer count

def answer (read : Except StorageError (List Row)) (lines : List Row → List Line) : Outcome :=
  match read with
  | .ok rows => .success (lines rows)
  | .error _ => .failed []

def Command.outcome (tally : Store) (cache : Event.Cache) (date : Date) : Command → Outcome
  | all format => answer tally.readAll fun rows => listed (listingTitle rows.length) format rows
  | today format => answer (tally.readBucket .day date) (listed (dayTitle date) format)
  | month format => answer (tally.readBucket .month date) (listed (monthTitle date) format)
  | pending => answer (pendingRows tally date) fun rows =>
      listed (pendingTitle rows.length) .table rows
  | stats =>
    match tally.readAll, cache.count with
    | .error _, _ => .failed []
    | .ok rows, .error _ => .failed (statistics rows)
    | .ok rows, .ok count => .success (statistics rows ++ [pendingEvents count])

def Request.outcome (tally : Store) (cache : Event.Cache) (date : Date) : Request → Outcome
  | run _ command => command.outcome tally cache date
  | help topic => .success topic.lines
  | misuse => .misuse

end Telemetry.Viewer

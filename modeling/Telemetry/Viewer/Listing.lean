import Telemetry.Payload.Printer
import Telemetry.Viewer.Totals

namespace Telemetry.Viewer

open Tally Text Decimal

inductive Format
  | table
  | summary
  | json
  deriving DecidableEq, Repr

def Format.ofName (name : List Char) : Format :=
  if name = "json".toList then .json
  else if name = "summary".toList then .summary
  else .table

abbrev Line := List Char

def bar : List Char := " | ".toList

def shownPayload : Payload → List Char
  | some v => v.shown
  | none => ['-']

def tableLine (r : Row) : Line :=
  r.event.toChars ++ bar ++ r.bucket.rightpad 10 ' ' ++ bar
    ++ "uid ".toList ++ (integer r.user.toNat).rightpad 6 ' ' ++ bar
    ++ (integer r.counter.toNat).leftpad 10 ' ' ++ bar ++ shownPayload r.payload

def summaryLine (t : Total) : Line := t.key ++ bar ++ integer t.sum

def jsonRow (r : Row) : Json :=
  .object [("event_id".toList, .text r.event.toChars), ("bucket_key".toList, .text r.bucket),
    ("unix_user_id".toList, .bare (integer r.user.toNat)),
    ("payload".toList, (r.payload.map Value.toJson).getD .null),
    ("counter".toList, .bare (integer r.counter.toNat))]

/-- The lines of a list of rows. A JSON document is a single one. -/
def Format.lines (rows : List Row) : Format → List Line
  | table => rows.map tableLine
  | summary => (eventTotals rows).map summaryLine
  | json => [(Json.array (rows.map jsonRow)).pretty]

end Telemetry.Viewer

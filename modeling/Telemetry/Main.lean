import Std.Time.Zoned
import Telemetry.Event.Snapshot
import Telemetry.Tally.Snapshot
import Telemetry.Viewer.Report

namespace Telemetry.Viewer

open Codec

def contents? (path : String) : IO (Option Bytes) := do
  try return some (← IO.FS.readBinFile path).toList
  catch
    | .noFileOrDirectory .. => return none
    | fault => throw fault

/-- What a file holds, if there is one. A file that cannot be read as a table ends the program. -/
def table? {α : Type} (decoder : Decoder α) (path : String) : IO (Option α) := do
  match ← contents? path with
  | none => return none
  | some bytes =>
    match decoder.decode bytes with
    | .ok table => return some table
    | .error fault => throw (IO.userError (path ++ ": " ++ fault.message))

def currentDate : IO Calendar.Date := do
  let day ← Std.Time.PlainDate.now
  let year : Int := day.year
  return (Calendar.Date.of? year day.month.toNat day.day.toNat).getD Calendar.Date.epoch

def Request.directory : Request → String
  | run (some directory) _ => String.ofList directory
  | _ => defaultDirectory

def Request.perform (request : Request) : IO Outcome := do
  match request with
  | run .. =>
    let path (name : String) : String := request.directory ++ "/" ++ name
    try
      let tally ← table? Tally.Table.decoder (path Daemon.tallyFileName)
      let cache ← table? Event.CacheTable.decoder (path Daemon.cacheFileName)
      return request.outcome (.opened tally) (.opened (UInt64.size - 1) cache) (← currentDate)
    catch fault =>
      IO.eprintln ("Error: " ++ fault.toString)
      return .failed []
  | _ =>
    if request = .misuse then IO.eprintln "For more information, try '--help'."
    return request.outcome (.opened none) (.opened 0 none) .epoch

end Telemetry.Viewer

open Telemetry.Viewer

def main (args : List String) : IO UInt32 := do
  let outcome ← (Request.read (args.map String.toList)).perform
  IO.print (String.ofList outcome.text)
  return UInt32.ofNat outcome.code

import Telemetry.Daemon.State
import Telemetry.Viewer.Command

namespace Telemetry.Viewer

def purpose (name : Argument) : String :=
  if name = "all".toList then "Show every stored tally row"
  else if name = "today".toList then "Show today's day bucket"
  else if name = "month".toList then "Show the current month bucket"
  else if name = "pending".toList then
    "Show rows from closed periods that the next upload will carry"
  else if name = "stats".toList then "Show aggregate statistics"
  else "Print this message or the help of the given subcommand(s)"

def commandNames : List Argument :=
  ["all".toList, "today".toList, "month".toList, "pending".toList, "stats".toList, "help".toList]

def defaultDirectory : String := Daemon.Paths.standard.cacheDirectory

def entry (width : Nat) (name : List Char) (text : String) : Line :=
  ' ' :: ' ' :: name.rightpad width ' ' ++ ' ' :: ' ' :: text.toList

def viewerHelp : List Line :=
  ["Inspect event recorder tallies".toList, [],
    "Usage: tally_viewer [OPTIONS] <COMMAND>".toList, [],
    "Commands:".toList]
  ++ commandNames.map (fun name => entry 7 name (purpose name))
  ++ [[], "Options:".toList,
    entry 15 "-d, --dir <DIR>".toList
      ("Persistent cache directory of the daemon [default: " ++ defaultDirectory ++ "]"),
    entry 15 "-h, --help".toList "Print help"]

def commandHelp (name : Argument) : List Line :=
  let usage := "Usage: tally_viewer ".toList ++ name
  if (listing? name).isSome then
    [(purpose name).toList, [], usage ++ " [OPTIONS]".toList, [], "Options:".toList,
      entry 21 "-f, --format <FORMAT>".toList
        "Output format: table, summary, json [default: table]",
      entry 21 "-h, --help".toList "Print help"]
  else
    [(purpose name).toList, [], usage, [], "Options:".toList,
      entry 10 "-h, --help".toList "Print help"]

def helpHelp : List Line :=
  [(purpose "help".toList).toList, [], "Usage: tally_viewer help [COMMAND]...".toList, [],
    "Arguments:".toList, entry 12 "[COMMAND]...".toList "Print help for the subcommand(s)"]

def Topic.lines : Topic → List Line
  | viewer => viewerHelp
  | command name => commandHelp name
  | help => helpHelp

end Telemetry.Viewer

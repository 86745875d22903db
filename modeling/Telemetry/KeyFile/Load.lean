import Telemetry.FileTree
import Telemetry.KeyFile.Parser
import Telemetry.KeyFile.Printer
import Telemetry.Text.Utf8

namespace Telemetry.KeyFile

open Text

inductive LoadError
  | unreadable
  | illFormed (cause : ParseError)
  deriving DecidableEq, Repr

def LoadError.message : LoadError → String
  | .unreadable => "Failed to read"
  | .illFormed cause => cause.message

/-- The key file that an entry holds, if there is one. -/
def load : Entry → Except LoadError (Option KeyFile)
  | .missing => .ok none
  | .directory => .error .unreadable
  | .file bytes =>
    match Utf8.decode bytes with
    | .error _ => .error .unreadable
    | .ok text =>
      match parse text with
      | .error e => .error (.illFormed e)
      | .ok f => .ok (some f)

def loadAt (t : FileTree) (p : Path) : Except LoadError (Option KeyFile) :=
  match t.find p with
  | .ok e => load e
  | .error .missing => .ok none
  | .error .other => .error .unreadable

def contents (f : KeyFile) : List UInt8 := Utf8.encode f.render

end Telemetry.KeyFile

import Telemetry.KeyFile.Basic
import Telemetry.Text.Blank
import Telemetry.Text.Lines

namespace Telemetry.KeyFile

open Text

inductive Line
  | ignored
  | header (name : List Char)
  | assignment (key value : List Char)
  | unterminated
  | noEquals
  deriving DecidableEq, Repr

def beforeBracket? (s : List Char) : Option (List Char) :=
  match s.reverse with
  | ']' :: before => some before.reverse
  | _ => none

def Line.ofTrimmed : List Char → Line
  | [] => .ignored
  | '#' :: _ => .ignored
  | ';' :: _ => .ignored
  | '[' :: rest =>
    match beforeBracket? rest with
    | some name => .header (trim name)
    | none => .unterminated
  | line =>
    match splitAt? '=' line with
    | some (key, value) => .assignment (trim key) (trim value)
    | none => .noEquals

def Line.ofRaw (raw : List Char) : Line := .ofTrimmed (trim raw)

inductive LineFault
  | unterminatedHeader
  | outsideGroup
  | noEquals
  deriving DecidableEq, Repr

def LineFault.message : LineFault → String
  | .unterminatedHeader => "unterminated group header"
  | .outsideGroup => "key outside of any group"
  | .noEquals => "expected key=value"

structure ParseError where
  line : Nat
  fault : LineFault
  deriving DecidableEq, Repr

def ParseError.message (e : ParseError) : String :=
  "Line " ++ toString e.line ++ ": " ++ e.fault.message

/-- The file read so far and the group that is open. -/
structure Reading where
  file : KeyFile
  group : Option (List Char)

/-- One line acts on a reading. An assignment before any header is told first that it stands
outside, whatever else is wrong with it. -/
def Reading.step (r : Reading) : Line → Except LineFault Reading
  | .ignored => .ok r
  | .header name => .ok ⟨r.file.openGroup name, some name⟩
  | .unterminated => .error .unterminatedHeader
  | .assignment key value =>
    match r.group with
    | none => .error .outsideGroup
    | some group => .ok { r with file := r.file.set group key value }
  | .noEquals =>
    match r.group with
    | none => .error .outsideGroup
    | some _ => .error .noEquals

def Reading.run (n : Nat) (r : Reading) : List Line → Except ParseError Reading
  | [] => .ok r
  | line :: rest =>
    match r.step line with
    | .error fault => .error ⟨n, fault⟩
    | .ok r' => r'.run (n + 1) rest

def parse (text : List Char) : Except ParseError KeyFile :=
  (Reading.run 1 ⟨empty, none⟩ ((lines text).map Line.ofRaw)).map Reading.file

end Telemetry.KeyFile

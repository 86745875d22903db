namespace Telemetry

inductive Entry
  | missing
  | directory
  | file (bytes : List UInt8)
  deriving DecidableEq, Repr

inductive SaveError
  | createDirectory
  | createTemporary
  | rename
  deriving DecidableEq, Repr

def SaveError.message : SaveError → String
  | .createDirectory => "Failed to create directory"
  | .createTemporary => "Create temp failed"
  | .rename => "Rename failed"

namespace Entry

def bytes? : Entry → Option (List UInt8)
  | file bytes => some bytes
  | _ => none

/-- A file or nothing gives way to a file, a directory does not. -/
def replace (bytes : List UInt8) : Entry → Except SaveError Entry
  | directory => .error .rename
  | _ => .ok (file bytes)

def replaced (bytes : List UInt8) (e : Entry) : Entry :=
  match e.replace bytes with
  | .ok e' => e'
  | .error _ => e

end Entry

end Telemetry

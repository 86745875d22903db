import Telemetry.KeyFile.Load
import Telemetry.Text.Blank
import Telemetry.Uuid

namespace Telemetry.Upload

open Text

namespace SendCounter

def group : List Char := "network_send_data".toList

def key : List Char := "network_requests_sent".toList

inductive Fault
  | load (cause : KeyFile.LoadError)
  | value (cause : KeyFile.ValueError)
  | save (cause : SaveError)
  deriving DecidableEq, Repr

def Fault.message : Fault → String
  | .load cause => cause.message
  | .value cause => cause.message
  | .save cause => cause.message

/-- The number of the next request; a file that is missing or silent counts none so far. -/
def current (e : Entry) : Except Fault UInt64 :=
  match KeyFile.load e with
  | .error cause => .error (.load cause)
  | .ok none => .ok 0
  | .ok (some f) =>
    match f.getNumber group key with
    | .error cause => .error (.value cause)
    | .ok n => .ok (n.getD 0)

def file (n : UInt64) : KeyFile := KeyFile.empty.set group key (Numeral.ofNat n.toNat)

/-- Takes the number of the next request and keeps its successor. -/
def next (e : Entry) : Except Fault UInt64 × Entry :=
  match current e with
  | .error fault => (.error fault, e)
  | .ok n =>
    match e.replace (file (n + 1)).contents with
    | .error cause => (.error (.save cause), e)
    | .ok e' => (.ok n, e')

end SendCounter

def machineIdentity (e : Entry) : Uuid :=
  match e with
  | .file bytes =>
    match Utf8.decode bytes with
    | .ok text => (Uuid.parse? (trim text)).getD .nil
    | .error _ => .nil
  | _ => .nil

end Telemetry.Upload

import Telemetry.KeyFile.Load

namespace Telemetry.Consent

inductive Environment
  | production
  | dev
  deriving DecidableEq, Repr

namespace Environment

def name : Environment → String
  | production => "production"
  | dev => "dev"

def parse? (s : List Char) : Option Environment :=
  if s = "production".toList then some production
  else if s = "dev".toList then some dev
  else none

def uploadInterval : Environment → Nat
  | production => 60 * 60
  | dev => 15 * 60

def serverUrl (e : Environment) : String := "https://" ++ e.name ++ ".metrics.endlessm.com"

end Environment

structure State where
  enabled : Bool
  /-- Has no effect while `enabled` is false. -/
  uploading : Bool
  environment : Environment
  deriving DecidableEq, Repr

namespace State

def refused : State := ⟨false, false, .production⟩

instance : Inhabited State := ⟨refused⟩

def uploadAllowed (s : State) : Bool := s.enabled && s.uploading

def group : List Char := "global".toList

def enabledKey : List Char := "enabled".toList

def uploadingKey : List Char := "uploading_enabled".toList

def environmentKey : List Char := "environment".toList

/-- A flag that is absent, or no boolean, is false. -/
def flag (f : KeyFile) (key : List Char) : Bool :=
  match f.getBool group key with
  | .ok (some b) => b
  | _ => false

def ofKeyFile (f : KeyFile) : State :=
  { enabled := flag f enabledKey
    uploading := flag f uploadingKey
    environment := ((f.get group environmentKey).bind Environment.parse?).getD .production }

def boolText (b : Bool) : List Char := if b then "true".toList else "false".toList

def toKeyFile (s : State) : KeyFile :=
  KeyFile.empty
    |>.set group enabledKey (boolText s.enabled)
    |>.set group uploadingKey (boolText s.uploading)
    |>.set group environmentKey s.environment.name.toList

/-- The state that an entry of the disk gives at start-up. -/
def load (e : Entry) : State :=
  match KeyFile.load e with
  | .ok (some f) => ofKeyFile f
  | _ => refused

end State

end Telemetry.Consent

import Telemetry.Consent.State
import Telemetry.Error

namespace Telemetry.Consent

/-- States that wait to be written to the consent file, the oldest first. -/
structure Outbox where
  waiting : List State
  isOpen : Bool
  deriving DecidableEq, Repr

namespace Outbox

def opened : Outbox := ⟨[], true⟩

def submit (o : Outbox) (s : State) : Outbox :=
  if o.isOpen then { o with waiting := o.waiting ++ [s] } else o

def write (e : Entry) (s : State) : Entry := e.replaced s.toKeyFile.contents

def flush (o : Outbox) (e : Entry) : Outbox × Entry :=
  ({ o with waiting := [] }, o.waiting.foldl write e)

def close (o : Outbox) (e : Entry) : Outbox × Entry :=
  (⟨[], false⟩, o.waiting.foldl write e)

end Outbox

inductive Action
  | setEnabled
  | setUploading
  deriving DecidableEq, Repr

def Action.name : Action → String
  | .setEnabled => "set metrics enabled"
  | .setUploading => "set uploading enabled"

/-- The users who may change consent. -/
structure Authority where
  users : List UInt32
  deriving DecidableEq, Repr

namespace Authority

def root : Authority := ⟨[0]⟩

def allows (a : Authority) (user : UInt32) (_ : Action) : Bool := a.users.contains user

end Authority

structure Gate where
  state : State
  /-- The number of revocations, without a bound. -/
  generation : Nat
  /-- The values that `enabled` took since the start, in order. -/
  changes : List Bool
  authority : Authority
  outbox : Outbox
  deriving DecidableEq, Repr

namespace Gate

def opened (state : State) (authority : Authority) : Gate :=
  ⟨state, 0, [], authority, .opened⟩

def enabled (g : Gate) : Bool := g.state.enabled

def uploadAllowed (g : Gate) : Bool := g.state.uploadAllowed

/-- Whether nothing was revoked since `generation` was noted. -/
def current (g : Gate) (generation : Nat) : Bool := g.enabled && g.generation == generation

/-- Whether an upload may start, and the number to note for it. -/
def checkUpload (g : Gate) : Except RecorderError Nat :=
  if !g.state.enabled then .error .disabled
  else if !g.state.uploading then .error .uploadingDisabled
  else .ok g.generation

def authorize (g : Gate) (user : UInt32) (action : Action) : Except RecorderError Unit :=
  if g.authority.allows user action then .ok () else .error (.unauthorized action.name)

/-- The change of the flags. It takes the permission to upload with it, and a revocation is
counted. -/
def turn (g : Gate) (enabled : Bool) : Gate :=
  { g with
    state := { g.state with enabled := enabled, uploading := false }
    generation := if enabled then g.generation else g.generation + 1
    changes := g.changes ++ [enabled] }

def announce (g : Gate) : Gate := { g with outbox := g.outbox.submit g.state }

/-- Changes the permission to upload, which there is only while metrics are enabled. -/
def setUploading (g : Gate) (user : UInt32) (uploading : Bool) : Except RecorderError Gate := do
  g.authorize user .setUploading
  if !g.state.enabled then .error .disabled
  else if g.state.uploading = uploading then .ok g
  else .ok { g with state := { g.state with uploading := uploading } }.announce

end Gate

end Telemetry.Consent

import Telemetry.Upload.Batch
/-!
The collector that batches are sent to, as far as its answers are laid down: for each attempt what
happens on the host meanwhile and whether the batch is refused. It remembers every batch it was
sent.
-/

namespace Telemetry.Upload

/-- What may happen on the host while an attempt is under way. -/
inductive Meanwhile
  | setEnabled (enabled : Bool)
  | advance (nanoseconds : Nat)
  | count (i : Tally.Increment)
  | loseTally
  | loseCache
  deriving DecidableEq, Repr

/-- The course of one attempt. -/
structure Course where
  meanwhile : List Meanwhile
  refused : Bool
  deriving DecidableEq, Repr

def Course.smooth : Course := ⟨[], false⟩

structure Delivery where
  batch : Batch
  accepted : Bool
  deriving DecidableEq, Repr

structure Collector where
  /-- The courses of the attempts to come; behind them all go smoothly. -/
  script : List Course
  received : List Delivery
  deriving DecidableEq, Repr

namespace Collector

def fresh : Collector := ⟨[], []⟩

def plan (c : Collector) (courses : List Course) : Collector :=
  { c with script := c.script ++ courses }

def course (c : Collector) : Course := c.script.head?.getD .smooth

def receive (c : Collector) (b : Batch) : Collector :=
  ⟨c.script.drop 1, c.received ++ [⟨b, !c.course.refused⟩]⟩

def attempts (c : Collector) : Nat := c.received.length

/-- The batches it accepted, in order. -/
def accepted (c : Collector) : List Batch :=
  c.received.filterMap fun d => if d.accepted then some d.batch else none

end Collector

end Telemetry.Upload

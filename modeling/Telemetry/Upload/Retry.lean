import Telemetry.Event.Buffer

namespace Telemetry.Upload

structure Config where
  maxAttempts : Nat
  /-- Milliseconds before the second attempt at least. -/
  initialBackoff : Nat
  scheduledMaxBytes : Nat
  deriving DecidableEq, Repr

namespace Config

def standard : Config := ⟨8, 1000, Event.maxRecordCost⟩

def maxDoublings : Nat := 16

/-- The milliseconds between an attempt that failed and the one behind it. -/
def pause (c : Config) (attempt : Nat) : Nat :=
  (c.initialBackoff <<< min (attempt - 1) maxDoublings) * 3 / 2

def waited (c : Config) : Nat → Nat
  | 0 => 0
  | attempts + 1 => c.waited attempts + c.pause (attempts + 1)

/-- How many of so many more attempts begin in some time, the first at once. -/
def begun (c : Config) (time attempt : Nat) : Nat → Nat
  | 0 => 0
  | more + 1 =>
    if c.pause attempt ≤ time then 1 + c.begun (time - c.pause attempt) (attempt + 1) more else 1

def attemptsWithin (c : Config) (time : Nat) : Nat :=
  if c.initialBackoff = 0 then c.maxAttempts else c.begun time 1 c.maxAttempts

end Config

end Telemetry.Upload

import Telemetry.Calendar.Date

namespace Telemetry

open Calendar

structure Clock where
  boot : Int64
  wall : Int64
  today : Date
  deriving DecidableEq, Repr

namespace Clock

def start (today : Date) : Clock := ⟨1000000000, 1700000000000, today⟩

def advance (c : Clock) (nanoseconds : Nat) : Clock :=
  { c with
    boot := c.boot + Int64.ofNat nanoseconds
    wall := c.wall + Int64.ofNat (nanoseconds / 1000000) }

def setToday (c : Clock) (date : Date) : Clock := { c with today := date }

end Clock

end Telemetry

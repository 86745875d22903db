namespace Telemetry

structure ClientId where
  number : UInt64
  deriving DecidableEq, Repr

def ClientId.toString (c : ClientId) : String := "client-" ++ ToString.toString c.number.toNat

/-- Names a reference to a running timer. -/
structure TimerHandle where
  number : UInt64
  deriving DecidableEq, Repr, Inhabited

def TimerHandle.toString (h : TimerHandle) : String := "/timer/" ++ ToString.toString h.number.toNat

/-- The last stamp that was given out, if any. -/
structure StampGuard where
  last : Option Int64
  deriving DecidableEq, Repr

namespace StampGuard

def fresh : StampGuard := ⟨none⟩

/-- Stamps never decrease, and never run ahead of the clock sample `now` unless an earlier stamp
already did. -/
def stamp (g : StampGuard) (client now : Int64) : Int64 :=
  let floor := g.last.getD Int64.minValue
  min (max client floor) (max now floor)

def apply (g : StampGuard) (client now : Int64) : Int64 × StampGuard :=
  (g.stamp client now, ⟨some (g.stamp client now)⟩)

end StampGuard

structure Session where
  client : ClientId
  user : UInt32
  guard : StampGuard
  deriving DecidableEq, Repr

def Session.fresh (client : ClientId) (user : UInt32) : Session := ⟨client, user, .fresh⟩

end Telemetry

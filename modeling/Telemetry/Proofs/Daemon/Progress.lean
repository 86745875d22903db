import Telemetry.Proofs.Daemon.Delivery

namespace Telemetry

open Calendar Consent Daemon Event Protocol Upload

namespace Daemon

variable {d d' : Daemon} {t : CacheTable} {f : InFlight}

end Daemon

namespace Protocol.Host

variable {h : Host}

/-- A scheduled upload may start, and the collector accepts one of its attempts. -/
structure Serves (h : Host) : Prop where
  allowed : h.daemon.gate.uploadAllowed = true
  accepts : h.collector.firstAccepted ≤ h.daemon.config.upload.maxAttempts

instance (h : Host) : Decidable h.Serves :=
  decidable_of_iff (h.daemon.gate.uploadAllowed = true ∧
    h.collector.firstAccepted ≤ h.daemon.config.upload.maxAttempts)
    ⟨fun ⟨ha, hc⟩ => ⟨ha, hc⟩, fun ⟨ha, hc⟩ => ⟨ha, hc⟩⟩

/-- The number of scheduled uploads that the collector serves. -/
def served : Host → List Turn → Nat
  | _, [] => 0
  | h, e :: es => (if e = .scheduled ∧ h.Serves then 1 else 0) + served (h.turn e) es

theorem Delivers.all {h' : Host} {sent : List Record} (hd : Delivers h h' sent [])
    (hlength : h'.daemon.pending.length ≤ 0) :
    h'.daemon.pending = [] ∧ ∃ bs sent, h'.collector.accepted = h.collector.accepted ++ bs ∧
      Batched bs sent ∧ sent.Perm h.daemon.pending := by
  have hnone := List.eq_nil_of_length_eq_zero (Nat.le_zero.1 hlength)
  obtain ⟨bs, hbs, hbatched⟩ := hd.batched
  have hperm := hd.conserved
  rw [hnone, List.append_nil, List.append_nil] at hperm
  exact ⟨hnone, bs, sent, hbs, hbatched, hperm⟩

def waiting : List Act := [Site.event 1, .flush, Site.event 2]

end Protocol.Host

end Telemetry

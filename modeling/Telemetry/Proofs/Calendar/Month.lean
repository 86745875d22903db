import Telemetry.Proofs.Calendar.Key

namespace Telemetry.Calendar

def daysOfMonth (d : Date) : List Date :=
  (List.range (daysIn d.year d.month)).filterMap fun n => Date.of? d.year d.month (n + 1)

theorem mem_daysOfMonth {d e : Date} :
    e ∈ daysOfMonth d ↔ e.year = d.year ∧ e.month = d.month := by
  rw [daysOfMonth, List.mem_filterMap]
  constructor
  · rintro ⟨n, -, h⟩
    rw [Date.of?] at h
    split at h
    · cases h
      exact ⟨rfl, rfl⟩
    · cases h
  · rintro ⟨hy, hm⟩
    obtain ⟨-, -, -, -, hpos, hle⟩ := e.valid
    have hself := Date.of?_self e
    rw [hy, hm] at hle hself
    refine ⟨e.day - 1, List.mem_range.2 (by omega), ?_⟩
    rw [Nat.sub_add_cancel hpos, hself]

end Telemetry.Calendar

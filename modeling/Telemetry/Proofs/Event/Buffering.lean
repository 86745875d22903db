import Mathlib.Data.List.DropRight
import Telemetry.Proofs.Event.Stock

namespace Telemetry.Event.Buffer

/-- What is asked of a buffer. -/
inductive Operation
  | push (record : Record)
  | take (limit : Option Nat)
  | clear
  deriving DecidableEq, Repr

/-- What became of it. -/
inductive Outcome
  | accepted (record : Record)
  | refused (record : Record)
  | taken (records : List Record)
  | cleared
  deriving DecidableEq, Repr

def perform (b : Buffer) : Operation → Outcome × Buffer
  | .push r => (if b.accepts r then .accepted r else .refused r, b.push r)
  | .take limit => (.taken (b.take limit).1, (b.take limit).2)
  | .clear => (.cleared, b.clear)

/-- The outcomes in the order of the operations, and the buffer after them. -/
def run (b : Buffer) (ops : List Operation) : List Outcome × Buffer :=
  ops.foldl (fun s op => (s.1 ++ [(s.2.perform op).1], (s.2.perform op).2)) ([], b)

theorem run_concat (b : Buffer) (ops : List Operation) (op : Operation) :
    b.run (ops ++ [op]) =
      ((b.run ops).1 ++ [((b.run ops).2.perform op).1], ((b.run ops).2.perform op).2) := by
  rw [run, List.foldl_append]
  rfl

def Outcome.entered : Outcome → List Record
  | accepted r => [r]
  | _ => []

def Outcome.left : Outcome → List Record
  | taken rs => rs
  | _ => []

/-- The end of a history, behind the last clear. -/
def sinceClear (history : List Outcome) : List Outcome := history.rtakeWhile (· ≠ .cleared)

section Since

variable {history : List Outcome} {o : Outcome}

theorem sinceClear_cleared (history : List Outcome) : sinceClear (history ++ [.cleared]) = [] :=
  List.rtakeWhile_concat_neg _ _ _ (by simp)

theorem sinceClear_concat (h : o ≠ .cleared) (history : List Outcome) :
    sinceClear (history ++ [o]) = sinceClear history ++ [o] :=
  List.rtakeWhile_concat_pos _ _ _ (by simpa using h)

end Since

/-- The total is that of what is held, within the bounds, and nothing that was accepted since the last
clear is missing or out of order. -/
structure Balanced (history : List Outcome) (b : Buffer) : Prop extends b.Sound where
  queue : (sinceClear history).flatMap Outcome.entered =
    (sinceClear history).flatMap Outcome.left ++ b.records

variable {b : Buffer} {history : List Outcome}

theorem balanced_empty (limit : Nat) : Balanced [] (empty limit) := ⟨sound_empty limit, rfl⟩

theorem limit_perform (b : Buffer) (op : Operation) : (b.perform op).2.limit = b.limit := by
  cases op with
  | push r =>
    rw [perform, push]
    split <;> rfl
  | take limit => rfl
  | clear => rfl

theorem Balanced.perform (h : Balanced history b) (op : Operation) :
    Balanced (history ++ [(b.perform op).1]) (b.perform op).2 := by
  cases op with
  | push r =>
    refine ⟨h.toSound.push r, ?_⟩
    rw [Buffer.perform, records_push]
    cases b.accepts r with
    | true => simp [sinceClear_concat, h.queue, Outcome.entered, Outcome.left]
    | false => simp [sinceClear_concat, h.queue, Outcome.entered, Outcome.left]
  | take limit =>
    refine ⟨h.toSound.take limit, ?_⟩
    have hqueue := h.queue
    rw [← b.take_append limit] at hqueue
    simp [Buffer.perform, sinceClear_concat, hqueue, Outcome.entered, Outcome.left]
  | clear =>
    refine ⟨b.sound_clear, ?_⟩
    rw [Buffer.perform, sinceClear_cleared]
    rfl

theorem balanced_run (limit : Nat) (ops : List Operation) :
    Balanced ((empty limit).run ops).1 ((empty limit).run ops).2 ∧
      ((empty limit).run ops).2.limit = limit := by
  induction ops using List.reverseRecOn with
  | nil => exact ⟨balanced_empty limit, rfl⟩
  | append_singleton ops op ih =>
    rw [run_concat]
    exact ⟨ih.1.perform op, (limit_perform _ op).trans ih.2⟩

/-- What a buffer does next. A record that both bounds allow goes behind the others, and any other changes
nothing; what is taken out is the longest run from the front within the limit of the take, and no more
than was counted. -/
structure Serves (b : Buffer) : Prop where
  accepts : ∀ r, r.cost ≤ 100000 → totalCost b.records + r.cost ≤ b.limit →
    b.perform (.push r) = (.accepted r, ⟨b.limit, b.records ++ [r], b.bytes + r.cost⟩)
  refuses : ∀ r, 100000 < r.cost ∨ b.limit < totalCost b.records + r.cost →
    b.perform (.push r) = (.refused r, b)
  takes : ∀ limit, ∃ rs b', b.perform (.take limit) = (.taken rs, b') ∧
    Longest Record.cost limit b.records rs ∧ rs ++ b'.records = b.records ∧ totalCost rs ≤ b.bytes
  clears : b.perform .clear = (.cleared, empty b.limit)

theorem accepts_iff (h : b.Sound) (r : Record) :
    b.accepts r = true ↔ r.cost ≤ 100000 ∧ totalCost b.records + r.cost ≤ b.limit := by
  rw [accepts, decide_eq_true_eq, h.total]
  rfl

theorem Sound.serves (h : b.Sound) : b.Serves := by
  refine ⟨fun r hsmall hroom => ?_, fun r hover => ?_, fun limit => ?_, rfl⟩
  · have ha := (accepts_iff h r).2 ⟨hsmall, hroom⟩
    rw [perform, Buffer.push, if_pos ha, if_pos ha]
  · have ha : ¬b.accepts r = true := by
      rw [accepts_iff h]
      omega
    rw [perform, Buffer.push, if_neg ha, if_neg ha]
  · refine ⟨_, _, rfl, b.longest_take limit, b.take_append limit, ?_⟩
    rw [h.total, ← b.take_append limit, totalCost, totalCost, sumOf_append]
    exact Nat.le_add_right _ _

/-- However a buffer of any size is used, it counts what it holds, within the bounds; it accepts whatever
they allow, and of what it accepted since the last clear it holds all that was not taken out. -/
theorem stays_balanced (limit : Nat) (ops : List Operation) :
    ∃ history b, (empty limit).run ops = (history, b) ∧ b.limit = limit ∧
      b.bytes = totalCost b.records ∧ b.bytes ≤ limit ∧ (∀ r ∈ b.records, r.cost ≤ 100000) ∧
      (sinceClear history).flatMap Outcome.entered =
        (sinceClear history).flatMap Outcome.left ++ b.records ∧
      b.Serves := by
  obtain ⟨h, hlimit⟩ := balanced_run limit ops
  have hwithin := h.within
  rw [hlimit] at hwithin
  exact ⟨_, _, rfl, hlimit, h.total, hwithin, h.small, h.queue, h.toSound.serves⟩

end Telemetry.Event.Buffer

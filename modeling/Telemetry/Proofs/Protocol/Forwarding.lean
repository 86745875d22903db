import Telemetry.Proofs.Protocol.Reading
import Telemetry.Proofs.Protocol.Stream

namespace Telemetry

open Codec Text

namespace ErrorKind

def lead : ErrorKind → String
  | unauthorized => "caller is not authorized to "
  | invalidArgument => "invalid argument: "
  | storageFailure => "storage failure: "
  | uploadFailed => "upload failed: "
  | protocol => "protocol error: "
  | _ => ""

def leads (k : ErrorKind) : Nat → String
  | 0 => ""
  | n + 1 => k.lead ++ k.leads n

theorem length_leads (k : ErrorKind) (n : Nat) : (k.leads n).length = n * k.lead.length := by
  induction n with
  | zero => simp [leads]
  | succ n ih => rw [leads, String.length_append, ih, Nat.succ_mul, Nat.add_comm]

end ErrorKind

namespace RecorderError

def text? : RecorderError → Option String
  | unauthorized action => some action
  | invalidArgument text => some text
  | storage text => some text
  | upload text => some text
  | protocol text => some text
  | _ => none

/-- The error with words in front of its text. -/
def behind (words : String) : RecorderError → RecorderError
  | unauthorized action => unauthorized (words ++ action)
  | invalidArgument text => invalidArgument (words ++ text)
  | storage text => storage (words ++ text)
  | upload text => upload (words ++ text)
  | protocol text => protocol (words ++ text)
  | e => e

open Protocol in
/-- The error that a client makes of the message in which a daemon reports one. -/
def conveyed (e : RecorderError) : Option RecorderError :=
  match Frame.read Response.decoder (Frame.envelope (Response.ofError e).encode) with
  | .ok (.error reply) => some reply.error
  | _ => none

/-- The error after it was reported so many times, each time by the one who was told of it. -/
def forwarded (e : RecorderError) : Nat → Option RecorderError
  | 0 => some e
  | n + 1 => (e.forwarded n).bind conveyed

variable {e : RecorderError} {s words : String} {n : Nat}

theorem message_of_text? (h : e.text? = some s) : e.message = e.kind.lead ++ s := by
  cases e <;> cases h <;> rfl

theorem lead_pos_of_text? (h : e.text? = some s) : 0 < e.kind.lead.length := by
  cases e <;> cases h <;> simp only [kind, ErrorKind.lead] <;> decide

@[simp] theorem kind_behind (words : String) (e : RecorderError) :
    (e.behind words).kind = e.kind := by
  cases e <;> rfl

@[simp] theorem handle?_behind (words : String) (e : RecorderError) :
    (e.behind words).handle? = e.handle? := by
  cases e <;> rfl

@[simp] theorem text?_behind (words : String) (e : RecorderError) :
    (e.behind words).text? = e.text?.map (words ++ ·) := by
  cases e <;> rfl

theorem behind_of_text? (h : e.text? = none) : e.behind words = e := by
  cases e with
  | disabled | uploadingDisabled | unknownHandle => rfl
  | unauthorized | invalidArgument | storage | upload | protocol => cases h

theorem behind_empty (e : RecorderError) : e.behind "" = e := by
  cases e <;> simp [behind]

theorem behind_behind (first words : String) (e : RecorderError) :
    (e.behind words).behind first = e.behind (first ++ words) := by
  cases e <;> simp [behind, String.append_assoc]

theorem error_reply (e : RecorderError) : e.reply.error = e.behind e.kind.lead := by
  cases e <;> rfl

theorem conveyed_eq (h : Utf8.size e.message.toList < capacity 8) :
    e.conveyed = some (e.behind e.kind.lead) := by
  have hread := Protocol.Response.reads_error e.reply h
  rw [conveyed, Protocol.Frame.read_envelope, Protocol.Response.ofError, hread.decode,
    ← error_reply]
  rfl

theorem forwarded_eq
    (h : ∀ m < n, Utf8.size (e.behind (e.kind.leads m)).message.toList < capacity 8) :
    e.forwarded n = some (e.behind (e.kind.leads n)) := by
  induction n with
  | zero => rw [forwarded, ErrorKind.leads, behind_empty]
  | succ n ih =>
    have hbefore := ih fun m hm => h m (Nat.lt_succ_of_lt hm)
    rw [forwarded, hbefore, Option.bind_some, conveyed_eq (h n (Nat.lt_succ_self n)), kind_behind,
      behind_behind]
    rfl

theorem behind_leads_eq_self_iff : e.behind (e.kind.leads n) = e ↔ n = 0 ∨ e.text? = none := by
  constructor
  · intro h
    cases hs : e.text? with
    | none => exact .inr rfl
    | some s =>
      have htext := congrArg text? h
      rw [text?_behind, hs, Option.map_some, Option.some_inj] at htext
      have hlength := congrArg String.length htext
      rw [String.length_append, ErrorKind.length_leads] at hlength
      have hlead := lead_pos_of_text? hs
      have hzero : n * e.kind.lead.length = 0 := by omega
      exact .inl ((Nat.mul_eq_zero.1 hzero).resolve_right (Nat.ne_of_gt hlead))
  · rintro (rfl | h)
    · exact behind_empty e
    · exact behind_of_text? h

/-- An error that is reported and passed on, so many times as you like while the texts of the
replies can be carried, comes in with its kind and its handle. If it has a text of its own, the text
is shown behind the words of the kind as many times and once more; so it comes in as it was if it was
never sent or has no such text, and only then. -/
theorem text_grows_when_forwarded (e : RecorderError) (n : Nat)
    (h : ∀ m < n, Utf8.size (e.behind (e.kind.leads m)).message.toList < capacity 8) :
    ∃ e', e.forwarded n = some e' ∧ e'.kind = e.kind ∧ e'.handle? = e.handle? ∧
      (∀ s, e.text? = some s →
        e'.text? = some (e.kind.leads n ++ s) ∧ e'.message = e.kind.leads (n + 1) ++ s) ∧
      (e' = e ↔ n = 0 ∨ e.text? = none) := by
  refine ⟨_, forwarded_eq h, kind_behind _ e, handle?_behind _ e, fun s hs => ?_,
    behind_leads_eq_self_iff⟩
  have htext : (e.behind (e.kind.leads n)).text? = some (e.kind.leads n ++ s) := by
    rw [text?_behind, hs, Option.map_some]
  refine ⟨htext, ?_⟩
  rw [message_of_text? htext, kind_behind, ErrorKind.leads, String.append_assoc]

theorem text_grows_when_forwarded_twice :
    (∀ m < 2, Utf8.size
        ((storage "disk full").behind ((storage "disk full").kind.leads m)).message.toList <
          capacity 8) ∧
      ∃ e, (storage "disk full").forwarded 2 = some e ∧ e.kind = .storageFailure ∧
        e.message = "storage failure: storage failure: storage failure: disk full" := by
  have hsize : ∀ m < 2, Utf8.size
      ((storage "disk full").behind ((storage "disk full").kind.leads m)).message.toList <
        capacity 8 := by
    decide +kernel
  obtain ⟨e, he, hkind, -, htext, -⟩ := text_grows_when_forwarded (storage "disk full") 2 hsize
  exact ⟨hsize, e, he, hkind, (htext "disk full" rfl).2.trans (by decide)⟩

/-- The text of a failure to store is shown behind its words twice when it comes in, so that it is
another error. -/
theorem storage_not_conveyed_as_it_was :
    ∃ e, (storage "disk full").conveyed = some e ∧ e ≠ storage "disk full" ∧
      (storage "disk full").message = "storage failure: disk full" ∧
      e.message = "storage failure: storage failure: disk full" := by
  refine ⟨storage "storage failure: disk full", conveyed_eq (by decide +kernel), ?_, ?_, ?_⟩
  · decide
  · decide
  · decide

end RecorderError

end Telemetry

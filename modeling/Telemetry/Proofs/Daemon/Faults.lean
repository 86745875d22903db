import Telemetry.Proofs.Daemon.Custody
import Telemetry.Proofs.Daemon.Gathering

namespace Telemetry

open Consent Event Protocol Upload

theorem Event.Cache.Sound.recordsOf_load {c c' : Cache} (hs : c.Sound) {limit : Option Nat}
    {cached : List Cached} (h : c.load limit = .ok (cached, c')) :
    recordsOf c'.rows = recordsOf c.rows := by
  cases ht : c.table with
  | none =>
    rw [Cache.load, ht] at h
    cases h
  | some t =>
    obtain ⟨_, t', hload, -, hsame, -⟩ := Cache.exists_load ht (hs t ht) limit
    rw [hload] at h
    cases h
    rw [Cache.rows, Cache.rows, ht]
    exact hsame

namespace Daemon

/-- A fault of the stores ended the call. -/
def Faulted {α : Type} (r : Except RecorderError α) : Prop := ∃ text, r = .error (.storage text)

theorem faulted_ofStorage {α : Type} (e : StorageError) :
    Faulted (.error (.ofStorage e) : Except RecorderError α) := ⟨e.message, rfl⟩

theorem not_faulted_ok {α : Type} (a : α) : ¬Faulted (.ok a) := by
  rintro ⟨_, h⟩
  cases h

theorem faulted_error_iff {α β : Type} {e : RecorderError} :
    Faulted (.error e : Except RecorderError α) ↔ Faulted (.error e : Except RecorderError β) := by
  constructor <;>
  · rintro ⟨text, h⟩
    cases h
    exact ⟨text, rfl⟩

/-- What waits for delivery: the records that the cache holds, and then those of the buffer. -/
def pending (d : Daemon) : List Record := recordsOf d.cache.rows ++ d.buffer.records

/-- The second daemon holds what waits in the first, without some records from the front of the
buffer. -/
structure Loses (d d' : Daemon) (lost : List Record) : Prop where
  cached : recordsOf d'.cache.rows = recordsOf d.cache.rows
  buffered : lost ++ d'.buffer.records = d.buffer.records

variable {d d' : Daemon}

theorem Loses.perm {lost : List Record} (h : Loses d d' lost) :
    d.pending.Perm (lost ++ d'.pending) := by
  rw [pending, pending, ← h.cached, ← h.buffered]
  exact List.perm_append_comm_assoc _ _ _

theorem Loses.pending_eq_iff {lost : List Record} (h : Loses d d' lost) :
    d'.pending = d.pending ↔ lost = [] := by
  constructor
  · intro heq
    have hlength := h.perm.length_eq
    rw [heq, List.length_append] at hlength
    exact List.length_eq_zero_iff.1 (by omega)
  · rintro rfl
    rw [pending, pending, h.cached, ← h.buffered, List.nil_append]

section Gathering

/-- A reading of the stores that a gathering makes, and that fails. -/
inductive Unread (d : Daemon) (limit : Option Nat) : Prop
  | cache (e : StorageError) (h : d.cache.load limit = .error e)
  | days (e : StorageError) (hload : (d.cache.load limit).isOk)
      (h : d.tally.rowsBefore .day d.clock.today = .error e)
  | months (e : StorageError) (hload : (d.cache.load limit).isOk)
      (hdays : (d.tally.rowsBefore .day d.clock.today).isOk)
      (h : d.tally.rowsBefore .month d.clock.today = .error e)

/-- The records that a gathering takes out of the buffer: those that fit beside what it loads from
the cache, and none if there is nothing to load from. -/
def drawn (d : Daemon) (limit : Option Nat) : List Record :=
  match d.cache.load limit with
  | .error _ => []
  | .ok (cached, _) => (d.buffer.take (limit.map (· - sumOf Cached.cost cached))).1

/-- What a gathering draws from records when it has loaded some from the cache: all of them without
a limit, and else the longest run from the front within what is left of it. -/
def Draws (limit : Option Nat) (cached : List Cached) (rs kept : List Record) : Prop :=
  match limit with
  | none => kept = rs
  | some n => Fills (n - sumOf Cached.cost cached) 0 rs kept

theorem draws_drawn {limit : Option Nat} {cached : List Cached} {c : Cache}
    (h : d.cache.load limit = .ok (cached, c)) :
    Draws limit cached d.buffer.records (d.drawn limit) := by
  rw [drawn, h]
  cases limit with
  | none => exact d.buffer.take_none.1
  | some n => exact fills_fitting _ 0 _

theorem closedRows_eq_error_iff : (∃ e, d.closedRows = .error e) ↔
    (∃ e, d.tally.rowsBefore .day d.clock.today = .error e) ∨
      (d.tally.rowsBefore .day d.clock.today).isOk ∧
        ∃ e, d.tally.rowsBefore .month d.clock.today = .error e := by
  rw [closedRows]
  cases d.tally.rowsBefore .day d.clock.today with
  | error e => simp [bind, Except.bind]
  | ok days =>
    cases d.tally.rowsBefore .month d.clock.today with
    | error e => simp [bind, Except.bind, Except.isOk, Except.toBool]
    | ok months => simp [bind, Except.bind, pure, Except.pure]

theorem unread_iff {limit : Option Nat} : d.Unread limit ↔
    (∃ e, d.cache.load limit = .error e) ∨
      (d.cache.load limit).isOk ∧ ∃ e, d.closedRows = .error e := by
  rw [closedRows_eq_error_iff]
  constructor
  · rintro (⟨e, h⟩ | ⟨e, hload, h⟩ | ⟨e, hload, hdays, h⟩)
    · exact .inl ⟨e, h⟩
    · exact .inr ⟨hload, .inl ⟨e, h⟩⟩
    · exact .inr ⟨hload, .inr ⟨hdays, e, h⟩⟩
  · rintro (⟨e, h⟩ | ⟨hload, ⟨e, h⟩ | ⟨hdays, e, h⟩⟩)
    · exact .cache e h
    · exact .days e hload h
    · exact .months e hload hdays h

theorem not_faulted_deliver (d : Daemon) (c : Collector) (f : InFlight) :
    ¬Faulted (d.deliver c f).1 := by
  rintro ⟨text, h⟩
  rw [deliver] at h
  split at h
  · cases h
  · split at h <;> cases h

theorem gather_fault (hs : d.cache.Sound) {generation : Nat}
    (hcur : d.gate.current generation = true) (limit : Option Nat) :
    (Faulted (d.gather generation limit).1 ↔ d.Unread limit) ∧
      (Faulted (d.gather generation limit).1 →
        Loses d (d.gather generation limit).2 (d.drawn limit)) := by
  rw [unread_iff, gather, if_pos hcur, drawn]
  cases hload : d.cache.load limit with
  | error e => exact ⟨iff_of_true (faulted_ofStorage e) (.inl ⟨e, rfl⟩), fun _ => ⟨rfl, rfl⟩⟩
  | ok p =>
    obtain ⟨cached, cache⟩ := p
    dsimp only
    rw [closedRows_of_taken]
    cases d.closedRows with
    | error e =>
      refine ⟨iff_of_true (faulted_ofStorage e) (.inr ⟨rfl, e, rfl⟩), fun _ => ⟨?_, ?_⟩⟩
      · exact hs.recordsOf_load hload
      · exact Buffer.take_append _ _
    | ok rows =>
      refine ⟨iff_of_false (not_faulted_ok _) ?_, fun hf => absurd hf (not_faulted_ok _)⟩
      rintro (⟨e, h⟩ | ⟨-, e, h⟩) <;> cases h

theorem upload_fault_of_sound (hs : d.cache.Sound) {generation : Nat}
    (hcheck : d.gate.checkUpload = .ok generation) (trigger : Trigger) (c : Collector) :
    (Faulted (d.upload c trigger).1 ↔ d.Unread (d.uploadLimit trigger)) ∧
      (Faulted (d.upload c trigger).1 → (d.upload c trigger).2.2 = c ∧
        Loses d (d.upload c trigger).2.1 (d.drawn (d.uploadLimit trigger))) := by
  obtain ⟨hup, rfl⟩ := Site.checkUpload_ok hcheck
  obtain ⟨-, hcur⟩ := Site.checkUpload_of_allowed hup
  obtain ⟨hiff, hloses⟩ := gather_fault hs hcur (d.uploadLimit trigger)
  have hbegin : d.beginUpload = (.ok d.gate.generation, d) := by rw [beginUpload, hcheck]
  rw [upload, prepare, hbegin]
  dsimp only
  cases hg : d.gather d.gate.generation (d.uploadLimit trigger) with
  | mk r d' =>
    rw [hg] at hiff hloses
    cases r with
    | error e =>
      refine ⟨faulted_error_iff.trans hiff, fun h => ⟨rfl, hloses (faulted_error_iff.1 h)⟩⟩
    | ok f =>
      have hnot := not_faulted_deliver d' c f
      exact ⟨iff_of_false hnot (mt hiff.2 (not_faulted_ok f)), fun h => absurd h hnot⟩

theorem upload_of_unloaded {generation : Nat} (hcheck : d.gate.checkUpload = .ok generation)
    {trigger : Trigger} {e : StorageError} (c : Collector)
    (hload : d.cache.load (d.uploadLimit trigger) = .error e) :
    d.upload c trigger = (.error (.ofStorage e), d, c) := by
  obtain ⟨hup, rfl⟩ := Site.checkUpload_ok hcheck
  obtain ⟨-, hcur⟩ := Site.checkUpload_of_allowed hup
  have hgather : d.gather d.gate.generation (d.uploadLimit trigger) =
      (.error (.ofStorage e), d) := by rw [gather, if_pos hcur, hload]
  have hprepare : d.prepare trigger = (.error (.ofStorage e), d) := by
    rw [prepare, beginUpload, hcheck]
    exact hgather
  exact upload_of_refused hprepare

end Gathering

end Daemon

namespace Site

open Daemon

/-- Whatever an assembled daemon has been through: an upload that may start ends with a fault of the
stores just if one of its readings fails. The cache then holds what it held, and the buffer lacks what
the gathering took out of it, so that nothing is lost just if nothing was taken out. Once the cache
was read, that is all or the longest run within the limit; if it cannot be, nothing changes. -/
theorem upload_fault {config : Daemon.Config} {disk : Disk} {clock : Clock} {d : Daemon}
    (ha : assemble config disk clock = .ok d) (hdisk : ∀ t, disk.cache = some t → t.Sound)
    (acts : List Act) {g : Nat}
    (hcheck : ((opened d).run acts).daemon.gate.checkUpload = .ok g) (trigger : Trigger)
    (c : Collector) :
    let before := ((opened d).run acts).daemon
    let limit := before.uploadLimit trigger
    let (result, after, c') := before.upload c trigger
    (Faulted result ↔ before.Unread limit) ∧
      (Faulted result → c' = c ∧ Loses before after (before.drawn limit) ∧
        (after.pending = before.pending ↔ before.drawn limit = [])) ∧
      (∀ cached cache, before.cache.load limit = .ok (cached, cache) →
        Draws limit cached before.buffer.records (before.drawn limit)) ∧
      ∀ e, before.cache.load limit = .error e → after = before := by
  have hs := sound_cache_run ha hdisk acts
  obtain ⟨hiff, hloses⟩ := upload_fault_of_sound hs hcheck trigger c
  refine ⟨hiff, fun h => ?_, fun _ _ hload => draws_drawn hload, fun e hload => ?_⟩
  · obtain ⟨hc, hlost⟩ := hloses h
    exact ⟨hc, hlost, hlost.pending_eq_iff⟩
  · exact congrArg (fun r => r.2.1) (upload_of_unloaded hcheck c hload)

def client : Session := .fresh ⟨1⟩ 1000

def event (n : UInt8) : Act :=
  .request client (.recordSingular 1000 (List.replicate 16 n) 5 ⟨false, .bool false⟩)

def sparing : Daemon.Config :=
  { Daemon.Config.standard with upload := { Upload.Config.standard with scheduledMaxBytes := 100 } }

def overfull : Disk :=
  { Disk.empty with
    consent := .file (State.toKeyFile ⟨true, true, .production⟩).contents
    tally := some [⟨1, ⟨"2024-05".toList, .nil, 1000, []⟩, 9223372036854775808⟩] }

theorem upload_fault_overfull :
    ∃ d, assemble sparing overfull (.start ⟨2024, 6, 30, by decide⟩) = .ok d ∧
      (∀ t, overfull.cache = some t → t.Sound) ∧
      let before := ((opened d).run [event 1, .flush, event 2, event 3]).daemon
      before.gate.checkUpload = .ok 0 ∧ before.pending.length = 3 ∧
        Faulted (before.upload .fresh .scheduled).1 ∧
        Loses before (before.upload .fresh .scheduled).2.1 (before.drawn (some 100)) ∧
        (before.drawn (some 100)).length = 1 ∧
        (before.upload .fresh .scheduled).2.1.pending ≠ before.pending := by
  have ha : assemble sparing overfull (.start ⟨2024, 6, 30, by decide⟩) = .ok _ := rfl
  have hdisk : ∀ t, overfull.cache = some t → t.Sound := fun _ h => nomatch h
  obtain ⟨hiff, hloses, -⟩ := upload_fault ha hdisk [event 1, .flush, event 2, event 3] (g := 0)
    (by decide +kernel) .scheduled .fresh
  have hfault := hiff.2 (.months .readTallyRow (by decide +kernel) (by decide +kernel)
    (by decide +kernel))
  obtain ⟨-, hlost, heq⟩ := hloses hfault
  refine ⟨_, ha, hdisk, by decide +kernel, by decide +kernel, hfault, hlost, by decide +kernel, ?_⟩
  exact fun h => absurd (heq.1 h) (by decide +kernel)

/-- A storage error does lose events: one waits, the table of counters is gone when an upload is
asked for, and after it nothing waits. With the table there again, an upload has nothing to send. -/
theorem lost_by_failed_gathering :
    ∃ d, assemble .standard .empty (.start .epoch) = .ok d ∧
      let before := ((opened d).run [.request (.fresh ⟨0⟩ 0) (.setEnabled true),
        .request (.fresh ⟨0⟩ 0) (.setUploading true), event 1, .loseTally]).daemon
      before.gate.checkUpload = .ok 0 ∧
        (before.upload .fresh .requested).1 = .error (.ofStorage .prepareTallyQuery) ∧
        before.pending.length = 1 ∧
        let after := (before.upload .fresh .requested).2.1
        after.pending = [] ∧
          (({ after with tally := d.tally } : Daemon).upload .fresh .requested).1 = .ok .none :=
  ⟨_, rfl, by decide +kernel⟩

end Site

namespace Daemon

variable {d : Daemon}

section Saving

/-- The ways in which the buffered records come to be saved: on their own, at a shutdown, and before
an upload that is refused because uploads are not permitted. -/
inductive Saving
  | alone
  | shutdown
  | refused (trigger : Trigger) (c : Collector)
  deriving DecidableEq, Repr

/-- What comes of the saving, and the daemon after the call that it is part of. -/
def save (d : Daemon) : Saving → Except RecorderError Unit × Daemon
  | .alone => (d.flush.1.map fun _ => (), d.flush.2)
  | .shutdown => (d.commitTimers.2.flush.1.map fun _ => (), d.shutdown)
  | .refused trigger c => ((d.upload c trigger).1.map fun _ => (), (d.upload c trigger).2.1)

/-- Whether the buffer is saved in a given way. -/
def saves (d : Daemon) : Saving → Bool
  | .refused .. => d.gate.checkUpload = .error .uploadingDisabled
  | _ => true

theorem faulted_map {α β : Type} (f : α → β) (r : Except RecorderError α) :
    Faulted (r.map f) ↔ Faulted r := by
  cases r with
  | ok a => exact iff_of_false (not_faulted_ok (f a)) (not_faulted_ok a)
  | error e => exact faulted_error_iff

theorem flush_fault (hon : d.gate.enabled = true) :
    (Faulted d.flush.1 ↔ ∃ e, d.cache.store d.buffer.records = .error e) ∧
      (Faulted d.flush.1 → d.flush.2 = { d with buffer := (d.buffer.take none).2 }) := by
  rw [flush, if_pos hon]
  dsimp only
  rw [d.buffer.take_none.1]
  cases d.cache.store d.buffer.records with
  | ok p =>
    refine ⟨iff_of_false (not_faulted_ok _) ?_, fun h => absurd h (not_faulted_ok _)⟩
    rintro ⟨e, h⟩
    cases h
  | error e => exact ⟨iff_of_true (faulted_ofStorage e) ⟨e, rfl⟩, fun _ => rfl⟩

theorem upload_refused (h : d.gate.checkUpload = .error .uploadingDisabled) (trigger : Trigger)
    (c : Collector) :
    (Faulted (d.upload c trigger).1 ↔ Faulted d.flush.1) ∧
      (d.upload c trigger).2 = (d.flush.2, c) := by
  rw [upload, prepare, beginUpload, h]
  dsimp only
  cases d.flush with
  | mk r d' =>
    cases r with
    | ok n =>
      refine ⟨iff_of_false ?_ (not_faulted_ok n), rfl⟩
      rintro ⟨_, h⟩
      cases h
    | error e => exact ⟨faulted_error_iff, rfl⟩

theorem save_eq (s : Saving) (hs : d.saves s = true) (hon : d.gate.enabled = true) :
    ∃ e : Daemon, e.gate.enabled = true ∧ e.buffer = d.buffer ∧ e.cache = d.cache ∧
      (Faulted (d.save s).1 ↔ Faulted e.flush.1) ∧ (d.save s).2.buffer = e.flush.2.buffer ∧
      (d.save s).2.cache = e.flush.2.cache := by
  cases s with
  | alone => exact ⟨d, hon, rfl, rfl, faulted_map _ _, rfl, rfl⟩
  | shutdown =>
    have hstill := still_commitTimers d
    have hgate : d.commitTimers.2.gate.enabled = true := by
      rw [gate_commitTimers]
      exact hon
    exact ⟨d.commitTimers.2, hgate, hstill.buffer, hstill.cache, faulted_map _ _, rfl, rfl⟩
  | refused trigger c =>
    obtain ⟨hfault, hd⟩ := upload_refused (of_decide_eq_true hs) trigger c
    have hd' : (d.upload c trigger).2.1 = d.flush.2 := by rw [hd]
    refine ⟨d, hon, rfl, rfl, (faulted_map _ _).trans hfault, ?_, ?_⟩
    · exact congrArg Daemon.buffer hd'
    · exact congrArg Daemon.cache hd'

/-- Saving fails where there are records to save and the table of the cache is gone, and then all of
them are lost: they have left the buffer, and the cache is as it was. A missing table is the one fault
that the cache has here; a transaction that cannot be begun, or that fails at an insert or at its
commit and is rolled back, is not modelled. -/
theorem saving_fault (hon : d.gate.enabled = true) (s : Saving) (hs : d.saves s = true) :
    (Faulted (d.save s).1 ↔ d.buffer.records ≠ [] ∧ d.cache.table = none) ∧
      (Faulted (d.save s).1 → (d.save s).2.cache = d.cache ∧
        Loses d (d.save s).2 d.buffer.records ∧ (d.save s).2.pending ≠ d.pending) := by
  obtain ⟨e, hon', hbuffer, hcache, hfault, hbuffer', hcache'⟩ := save_eq s hs hon
  obtain ⟨hiff, hflush⟩ := flush_fault hon'
  rw [hbuffer, hcache, Cache.store_eq_error_iff] at hiff
  have hsave := hfault.trans hiff
  refine ⟨hsave, fun h => ?_⟩
  have hafter := hflush (hfault.1 h)
  have hsame : (d.save s).2.cache = d.cache := by rw [hcache', hafter, hcache]
  have hloses : Loses d (d.save s).2 d.buffer.records := by
    refine ⟨by rw [hsame], ?_⟩
    rw [hbuffer', hafter, hbuffer, d.buffer.take_none.2, List.append_nil]
  exact ⟨hsame, hloses, fun heq => (hsave.1 h).1 (hloses.pending_eq_iff.1 heq)⟩

end Saving

def unsaved : List Act :=
  [.request (.fresh ⟨0⟩ 0) (.setEnabled true), Site.event 1, Site.event 2, .loseCache]

theorem saving_fault_unsaved :
    ∃ d, assemble .standard .empty (.start .epoch) = .ok d ∧
      let before := ((Site.opened d).run unsaved).daemon
      before.gate.enabled = true ∧ before.saves (.refused .requested .fresh) = true ∧
        before.saves .shutdown = true ∧
        Faulted (before.save (.refused .requested .fresh)).1 ∧ Faulted (before.save .shutdown).1 ∧
        before.buffer.records.length = 2 ∧
        Loses before (before.save (.refused .requested .fresh)).2 before.buffer.records ∧
        Loses before (before.save .shutdown).2 before.buffer.records := by
  have ha : assemble .standard .empty (.start .epoch) = .ok _ := rfl
  refine ⟨_, ha, ?_⟩
  intro before
  have hon : before.gate.enabled = true := rfl
  have hwaits : before.buffer.records ≠ [] ∧ before.cache.table = none :=
    ⟨List.cons_ne_nil _ _, rfl⟩
  obtain ⟨hiff, hloses⟩ := saving_fault hon (.refused .requested .fresh) rfl
  obtain ⟨hiff', hloses'⟩ := saving_fault hon .shutdown rfl
  have hfault := hiff.2 hwaits
  have hfault' := hiff'.2 hwaits
  exact ⟨hon, rfl, rfl, hfault, hfault', rfl, (hloses hfault).2.1, (hloses' hfault').2.1⟩

/-- A flush that fails does lose events: one is in the buffer before it, and after it none is there
or in the cache. -/
theorem lost_by_failed_flush :
    ∃ d, assemble .standard .empty (.start .epoch) = .ok d ∧
      let before := ((Site.opened d).run
        [.request (.fresh ⟨0⟩ 0) (.setEnabled true), Site.event 1, .loseCache]).daemon
      before.gate.enabled = true ∧ before.flush.1 = .error (.ofStorage .measureCache) ∧
        before.buffer.records.length = 1 ∧ before.flush.2.buffer.records = [] ∧
        before.flush.2.cache.rows = [] :=
  ⟨_, rfl, by decide +kernel⟩

end Daemon

end Telemetry

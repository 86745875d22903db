import Telemetry.Proofs.Daemon.Permission

namespace Telemetry

open Consent

namespace Consent

theorem State.load_toKeyFile (s : State) : load (.file s.toKeyFile.contents) = s := by
  obtain ⟨enabled, uploading, environment⟩ := s
  cases enabled <;> cases uploading <;> cases environment <;> decide +kernel

theorem Outbox.foldl_write {e : Entry} {ss : List State} {s : State}
    (h : ∃ e', e.replace s.toKeyFile.contents = .ok e') :
    (ss ++ [s]).foldl write e = .file s.toKeyFile.contents := by
  rw [List.foldl_append, List.foldl_cons, List.foldl_nil]
  induction ss generalizing e with
  | nil =>
    cases e with
    | directory => exact (nomatch h)
    | missing | file => rfl
  | cons first ss ih =>
    cases e with
    | directory => exact (nomatch h)
    | missing | file => exact ih ⟨_, rfl⟩

/-- What happens around the consent file: calls of any users, and a writer that makes the next write
or is waited for. -/
inductive Turn
  | setEnabled (user : UInt32) (enabled : Bool)
  | setUploading (user : UInt32) (uploading : Bool)
  | write
  | sync
  deriving DecidableEq, Repr

/-- A daemon with the states that its gate went through and those that were written, in order. -/
structure Mirror where
  daemon : Daemon
  changes : List State
  written : List State
  deriving DecidableEq, Repr

namespace Mirror

def opened (d : Daemon) : Mirror := ⟨d, [], []⟩

def called (m : Mirror) (d : Daemon) : Mirror :=
  { m with
    daemon := d
    changes :=
      if d.gate.state = m.daemon.gate.state then m.changes else m.changes ++ [d.gate.state] }

def write (m : Mirror) : Mirror :=
  match m.daemon.gate.outbox.waiting with
  | [] => m
  | s :: rest =>
    { m with
      daemon := { m.daemon with
        gate := { m.daemon.gate with outbox := { m.daemon.gate.outbox with waiting := rest } }
        consentFile := Outbox.write m.daemon.consentFile s }
      written := m.written ++ [s] }

def step (m : Mirror) : Turn → Mirror
  | .setEnabled user enabled =>
    m.called (m.daemon.settled (m.daemon.setEnabled user enabled)).2
  | .setUploading user uploading =>
    m.called (m.daemon.settled (m.daemon.setUploading user uploading)).2
  | .write => m.write
  | .sync =>
    { m with
      daemon := m.daemon.flushOutbox
      written := m.written ++ m.daemon.gate.outbox.waiting }

def run (m : Mirror) (turns : List Turn) : Mirror := turns.foldl step m

def closed (m : Mirror) : Mirror :=
  { m with
    daemon := m.daemon.closeOutbox
    written := m.written ++ m.daemon.gate.outbox.waiting }

/-- Every change of the state was written or waits, in order, and nothing else was written. -/
structure Keeps (initial : Entry) (m : Mirror) : Prop where
  isOpen : m.daemon.gate.outbox.isOpen = true
  order : m.written ++ m.daemon.gate.outbox.waiting = m.changes
  file : m.daemon.consentFile = m.written.foldl Outbox.write initial
  state : m.daemon.gate.state = m.changes.getLast?.getD (.load initial)

variable {initial : Entry} {m : Mirror} {d : Daemon}

structure Submits (d d' : Daemon) : Prop where
  outbox : d'.gate.outbox =
    if d'.gate.state = d.gate.state then d.gate.outbox else d.gate.outbox.submit d'.gate.state
  file : d'.consentFile = d.consentFile

theorem Submits.refl (d : Daemon) : Submits d d := ⟨by rw [if_pos rfl], rfl⟩

theorem submits_turn {enabled : Bool} (h : d.gate.enabled ≠ enabled) :
    Submits d (d.turn enabled) := by
  have hgate := Daemon.gate_turn d enabled
  have hstate : (d.turn enabled).gate.state ≠ d.gate.state := by
    intro hs
    have he : (d.turn enabled).gate.enabled = d.gate.enabled := congrArg State.enabled hs
    rw [hgate] at he
    exact h he.symm
  constructor
  · rw [if_neg hstate, hgate]
    rfl
  · rw [Daemon.turn]
    dsimp only
    split <;> rfl

theorem submits_setEnabled (d : Daemon) (user : UInt32) (enabled : Bool) :
    Submits d (d.settled (d.setEnabled user enabled)).2 := by
  obtain h | ⟨hne, h⟩ := Daemon.settled_setEnabled d user enabled
  · rw [h]
    exact .refl d
  · rw [h]
    exact submits_turn hne

theorem submits_setUploading (d : Daemon) (user : UInt32) (uploading : Bool) :
    Submits d (d.settled (d.setUploading user uploading)).2 := by
  obtain h | ⟨-, hne, h⟩ := Daemon.settled_setUploading d user uploading
  · rw [h]
    exact .refl d
  · have hstate : ({ d.gate.state with uploading := uploading } : State) ≠ d.gate.state :=
      fun hs => hne (congrArg State.uploading hs).symm
    rw [h]
    exact ⟨(if_neg hstate).symm, rfl⟩

theorem Keeps.called (h : Keeps initial m) {d' : Daemon} (hs : Submits m.daemon d') :
    Keeps initial (m.called d') := by
  by_cases hsame : d'.gate.state = m.daemon.gate.state
  · have ho := hs.outbox
    rw [if_pos hsame] at ho
    have hc : (m.called d').changes = m.changes := if_pos hsame
    refine ⟨?_, ?_, ?_, ?_⟩
    · exact ho ▸ h.isOpen
    · rw [hc, ← h.order, Mirror.called, ho]
    · exact hs.file.trans h.file
    · rw [hc, ← h.state]
      exact hsame
  · -- the new state is the last change, and the last that waits
    have ho := hs.outbox
    rw [if_neg hsame, Outbox.submit, if_pos h.isOpen] at ho
    have hc : (m.called d').changes = m.changes ++ [d'.gate.state] := if_neg hsame
    refine ⟨?_, ?_, ?_, ?_⟩
    · change d'.gate.outbox.isOpen = true
      rw [ho]
      exact h.isOpen
    · rw [hc, ← h.order, List.append_assoc]
      change m.written ++ d'.gate.outbox.waiting = _
      rw [ho]
    · exact hs.file.trans h.file
    · rw [hc, List.getLast?_concat]
      rfl

theorem Keeps.write (h : Keeps initial m) : Keeps initial m.write := by
  rw [Mirror.write]
  split
  · exact h
  · next s rest hw =>
    have ho := h.order
    rw [hw] at ho
    refine ⟨h.isOpen, ?_, ?_, h.state⟩
    · rw [List.append_assoc]
      exact ho
    · rw [List.foldl_append, ← h.file]
      rfl

theorem Keeps.drained (h : Keeps initial m) :
    m.written ++ m.daemon.gate.outbox.waiting = m.changes ∧
      m.daemon.gate.outbox.waiting.foldl Outbox.write m.daemon.consentFile =
        m.changes.foldl Outbox.write initial :=
  ⟨h.order, by rw [h.file, ← h.order, List.foldl_append]⟩

theorem keeps_step (h : Keeps initial m) (t : Turn) : Keeps initial (m.step t) := by
  cases t with
  | setEnabled user enabled => exact h.called (submits_setEnabled m.daemon user enabled)
  | setUploading user uploading => exact h.called (submits_setUploading m.daemon user uploading)
  | write => exact h.write
  | sync =>
    obtain ⟨ho, hf⟩ := h.drained
    refine ⟨h.isOpen, ?_, ?_, h.state⟩
    · change (m.written ++ m.daemon.gate.outbox.waiting) ++ [] = m.changes
      rw [List.append_nil, ho]
    · change m.daemon.gate.outbox.waiting.foldl Outbox.write m.daemon.consentFile =
        (m.written ++ m.daemon.gate.outbox.waiting).foldl Outbox.write initial
      rw [ho, hf]

theorem keeps_run (h : Keeps initial m) (turns : List Turn) : Keeps initial (m.run turns) := by
  induction turns generalizing m with
  | nil => exact h
  | cons t turns ih => exact ih (keeps_step h t)

theorem keeps_opened {config : Daemon.Config} {disk : Daemon.Disk} {clock : Clock}
    (ha : Daemon.assemble config disk clock = .ok d) : Keeps disk.consent (opened d) := by
  rw [Daemon.assemble] at ha
  split at ha
  · cases ha
  · cases ha
    split <;> exact ⟨rfl, rfl, rfl, rfl⟩

theorem Keeps.load_eq (h : Keeps initial m)
    (hw : ∀ s ∈ m.changes, ∃ e, initial.replace s.toKeyFile.contents = .ok e) :
    State.load (m.changes.foldl Outbox.write initial) = m.daemon.gate.state := by
  rw [h.state]
  cases hc : m.changes.getLast? with
  | none =>
    rw [List.getLast?_eq_none_iff.1 hc]
    rfl
  | some s =>
    obtain ⟨before, hb⟩ := List.getLast?_eq_some_iff.1 hc
    rw [hb, Outbox.foldl_write (hw s (by simp [hb])), State.load_toKeyFile]
    rfl

theorem consentFile_commitTimers (d : Daemon) : d.commitTimers.2.consentFile = d.consentFile := by
  rw [Daemon.commitTimers]
  split
  · dsimp only
    obtain ⟨tally, h⟩ := Daemon.exists_tally_commitEnded d
      (d.timers.drain d.clock.boot d.clock.today).1 (d.timers.drain d.clock.boot d.clock.today).2
    rw [h]
  · rfl

theorem consentFile_shutdown (d : Daemon) :
    d.shutdown.consentFile = d.closeOutbox.consentFile := by
  have hgate : d.commitTimers.2.flush.2.gate = d.gate :=
    (Daemon.shifted_flush _).gate.trans (Daemon.gate_commitTimers d)
  have hfile : d.commitTimers.2.flush.2.consentFile = d.consentFile :=
    (Daemon.shifted_flush _).consentFile.trans (consentFile_commitTimers d)
  rw [Daemon.shutdown, Daemon.closeOutbox, Daemon.closeOutbox, hgate, hfile]

theorem restart_shutdown (d : Daemon) :
    ∃ d', d.shutdown.restart = .ok d' ∧
      d'.gate.state = State.load d.closeOutbox.consentFile := by
  have hfile := consentFile_shutdown d
  rw [Daemon.restart, Daemon.assemble]
  refine ⟨_, if_neg Bool.false_ne_true, ?_⟩
  split <;> exact congrArg State.load hfile

/-- Whatever the consent file holds at first, whoever calls and however far the writer gets in
between: the changes of the state are written in order, each once. When all are written the file
gives the state that the gate has, and so does a restart. -/
theorem consent_survives {config : Daemon.Config} {disk : Daemon.Disk} {clock : Clock}
    (ha : Daemon.assemble config disk clock = .ok d) (turns : List Turn)
    (hw : ∀ s ∈ ((opened d).run turns).changes,
      ∃ e, disk.consent.replace s.toKeyFile.contents = .ok e) :
    let m := (opened d).run turns
    m.written ++ m.daemon.gate.outbox.waiting = m.changes ∧
      m.closed.written = m.changes ∧
      m.closed.daemon.consentFile = m.changes.foldl Outbox.write disk.consent ∧
      m.closed.daemon.gate.state = m.daemon.gate.state ∧
      State.load m.closed.daemon.consentFile = m.daemon.gate.state ∧
      m.daemon.shutdown.consentFile = m.closed.daemon.consentFile ∧
      ∃ d', m.daemon.shutdown.restart = .ok d' ∧ d'.gate.state = m.daemon.gate.state := by
  intro m
  have hk : Keeps disk.consent m := keeps_run (keeps_opened ha) turns
  obtain ⟨horder, hfile⟩ := hk.drained
  change m.closed.daemon.consentFile = _ at hfile
  have hload : State.load m.closed.daemon.consentFile = m.daemon.gate.state := by
    rw [hfile, hk.load_eq hw]
  obtain ⟨d', hd', hstate⟩ := restart_shutdown m.daemon
  exact ⟨horder, horder, hfile, rfl, hload, consentFile_shutdown m.daemon, d', hd',
    hstate.trans hload⟩

def interleaved : List Turn :=
  [.setEnabled 1000 true, .setEnabled 0 true, .setUploading 0 true, .write, .setUploading 0 true,
   .setUploading 1000 false]

def malformed : Daemon.Disk :=
  { Daemon.Disk.empty with
    consent := .file (Text.Utf8.encode "[global]\nenabled=true\nuploading_ena".toList) }

theorem consent_survives_malformed :
    ∃ d, Daemon.assemble .standard malformed (.start .epoch) = .ok d ∧
      let m := (opened d).run interleaved
      d.gate.state = .refused ∧
        m.changes = [⟨true, false, .production⟩, ⟨true, true, .production⟩] ∧
        m.written = [⟨true, false, .production⟩] ∧
        m.closed.written = m.changes ∧
        State.load m.closed.daemon.consentFile = ⟨true, true, .production⟩ := by
  have ha : Daemon.assemble .standard malformed (.start .epoch) = .ok _ := rfl
  obtain ⟨-, hwritten, -, -, hload, -, -⟩ :=
    consent_survives ha interleaved fun s _ => ⟨_, rfl⟩
  exact ⟨_, ha, by decide +kernel, by decide +kernel, by decide +kernel, hwritten,
    hload.trans (by decide +kernel)⟩

end Mirror

end Consent

end Telemetry

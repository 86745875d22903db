import Telemetry.Proofs.Daemon.Calm
import Telemetry.Proofs.Daemon.Holdings

namespace Telemetry

open Calendar Consent Daemon Event Protocol Upload

namespace Protocol

/-- What happens on a host, one thing after the other. -/
inductive Turn
  | request (s : Session) (r : Request)
  | scheduled
  | disconnect (client : ClientId)
  | advance (nanoseconds : Nat)
  | setToday (date : Date)
  | rollover
  | flush
  | reboot
  deriving DecidableEq, Repr

def Turn.trigger? : Turn → Option Trigger
  | request _ .uploadEvents => some .requested
  | scheduled => some .scheduled
  | _ => none

namespace Host

def turn (h : Host) : Turn → Host
  | .request s r => (h.dispatch s r).2.2
  | .scheduled =>
    let (_, d, c) := h.daemon.upload h.collector .scheduled
    ⟨d, c⟩
  | .disconnect client => { h with daemon := h.daemon.disconnect client }
  | .advance nanoseconds => { h with daemon := h.daemon.advance nanoseconds }
  | .setToday date => { h with daemon := h.daemon.setToday date }
  | .rollover => { h with daemon := h.daemon.checkRollover.2 }
  | .flush => { h with daemon := h.daemon.flush.2 }
  | .reboot =>
    match h.daemon.shutdown.restart with
    | .ok d => { h with daemon := d }
    | .error _ => { h with daemon := h.daemon.shutdown }

def turns (h : Host) (es : List Turn) : Host := es.foldl turn h

/-- What a turn hands to the cache. -/
def handed (h : Host) (e : Turn) : List Record :=
  match e, e.trigger? with
  | .flush, _ | .reboot, _ => h.daemon.buffer.records
  | _, some trigger =>
    if (h.daemon.upload h.collector trigger).1.isOk then [] else h.daemon.buffer.records
  | _, none => []

/-- A turn without a fault of the stores, within the limit of the cache, and not a revocation. -/
structure Peaceful (h : Host) (e : Turn) : Prop where
  consent : h.daemon.gate.enabled = true → (h.turn e).daemon.gate.enabled = true
  readable : e.trigger?.isSome = true → h.daemon.gate.uploadAllowed = true →
    h.daemon.closedRows.isOk = true
  room : h.handed e ≠ [] → sumOf CacheRow.size h.daemon.cache.rows + totalCost (h.handed e) ≤
    h.daemon.cache.limit

instance (h : Host) (e : Turn) : Decidable (h.Peaceful e) :=
  decidable_of_iff ((h.daemon.gate.enabled = true → (h.turn e).daemon.gate.enabled = true) ∧
      (e.trigger?.isSome = true → h.daemon.gate.uploadAllowed = true →
        h.daemon.closedRows.isOk = true) ∧
      (h.handed e ≠ [] → sumOf CacheRow.size h.daemon.cache.rows + totalCost (h.handed e) ≤
        h.daemon.cache.limit))
    ⟨fun ⟨hc, hr, hm⟩ => ⟨hc, hr, hm⟩, fun ⟨hc, hr, hm⟩ => ⟨hc, hr, hm⟩⟩

/-- Every turn is peaceful where it is taken. -/
def AllPeaceful : Host → List Turn → Prop
  | _, [] => True
  | h, e :: es => h.Peaceful e ∧ AllPeaceful (h.turn e) es

instance decidableAllPeaceful : (h : Host) → (es : List Turn) → Decidable (AllPeaceful h es)
  | _, [] => .isTrue trivial
  | h, e :: es =>
    have := decidableAllPeaceful (h.turn e) es
    inferInstanceAs (Decidable (h.Peaceful e ∧ AllPeaceful (h.turn e) es))

/-- What the buffer accepted: what stands behind what it had. -/
def gained (h h' : Host) : List Record :=
  h'.daemon.buffer.records.drop h.daemon.buffer.records.length

theorem gained_eq_nil {h h' : Host}
    (hle : h'.daemon.buffer.records.length ≤ h.daemon.buffer.records.length) :
    gained h h' = [] := List.drop_eq_nil_of_le hle

/-- All that the buffer accepts, in order. -/
def accepts : Host → List Turn → List Record
  | _, [] => []
  | h, e :: es => gained h (h.turn e) ++ accepts (h.turn e) es

/-- What holds of a host whose collector is calm at all times. -/
structure Whole (h : Host) : Prop where
  discreet : h.daemon.Discreet
  cache : h.daemon.cache.Sound
  buffer : h.daemon.buffer.Sound
  modest : h.daemon.Modest
  calm : h.collector.Calm

variable {h : Host} {t : CacheTable}

theorem whole_run {config : Daemon.Config} {disk : Disk} {clock : Clock} {d : Daemon}
    {c : Collector} (ha : assemble config disk clock = .ok d) (hd : config.discards = true)
    (hdisk : ∀ t, disk.cache = some t → t.Sound ∧ Encoded t.rows) (hc : c.Calm)
    (acts : List Act) : Whole ⟨((Site.opened d).run acts).daemon, c⟩ :=
  ⟨Site.discreet_run (w := Site.opened d) (.of_assemble ha hd) acts,
    Site.sound_cache_run ha (fun t ht => (hdisk t ht).1) acts, Site.sound_buffer_run ha acts,
    (Site.modest_run (Site.modest_opened (modest_of_assemble ha fun t ht => (hdisk t ht).2)) acts).daemon,
    hc⟩

theorem recorded_beside (d : Daemon) (c : Collector) (s : Session)
    (result : Except RecorderError (Session × Daemon)) :
    ((⟨d, c⟩ : Host).recorded s result).2.2 =
      ⟨((⟨d, .fresh⟩ : Host).recorded s result).2.2.daemon, c⟩ := by
  cases result <;> rfl

theorem changed_beside (d : Daemon) (c : Collector) (s : Session)
    (result : Except RecorderError Daemon) :
    ((⟨d, c⟩ : Host).changed s result).2.2 =
      ⟨((⟨d, .fresh⟩ : Host).changed s result).2.2.daemon, c⟩ := by
  cases result <;> rfl

theorem dispatch_beside (d : Daemon) (c : Collector) (s : Session) {r : Request}
    (hr : r ≠ .uploadEvents) :
    ((⟨d, c⟩ : Host).dispatch s r).2.2 = ⟨((⟨d, .fresh⟩ : Host).dispatch s r).2.2.daemon, c⟩ := by
  rw [host_dispatch, host_dispatch]
  cases r with
  | recordSingular | recordAggregate | recordSequence => exact recorded_beside d c s _
  | setEnabled | setUploading => exact changed_beside d c s _
  | startTimer flags event carried =>
    rw [execute, execute]
    cases d.startTimer s ⟨flags⟩ event carried.payload <;> rfl
  | stopTimer | getEnabled | getUploading => rfl
  | uploadEvents => exact absurd rfl hr

/-- A turn is a history of the daemon's. -/
theorem exists_run_turn (hc : h.collector.Calm) (e : Turn) :
    ∃ acts, (Site.beside h.daemon .idle h.collector).run acts =
      Site.beside (h.turn e).daemon .idle (h.turn e).collector := by
  cases e with
  | request s r =>
    by_cases hr : r = .uploadEvents
    · subst hr
      obtain ⟨acts, hacts⟩ := Site.exists_run_upload h.daemon hc.orderly .requested
      refine ⟨acts, hacts.trans ?_⟩
      rw [turn, host_dispatch, execute]
    · refine ⟨[.request s r], ?_⟩
      rw [turn, dispatch_beside h.daemon h.collector s hr, Site.run_cons, Site.run_nil, Site.step,
        Site.request, if_neg hr]
      rfl
  | scheduled =>
    obtain ⟨acts, hacts⟩ := Site.exists_run_upload h.daemon hc.orderly .scheduled
    exact ⟨acts, hacts⟩
  | disconnect client => exact ⟨[.disconnect client], rfl⟩
  | advance nanoseconds => exact ⟨[.advance nanoseconds], rfl⟩
  | setToday date => exact ⟨[.setToday date], rfl⟩
  | rollover => exact ⟨[.rollover], rfl⟩
  | flush => exact ⟨[.flush], rfl⟩
  | reboot =>
    refine ⟨[.shutdown, .restart], ?_⟩
    rw [turn, Site.run_cons, Site.run_cons, Site.run_nil]
    change (⟨h.daemon.shutdown, .idle, _, _⟩ : Site).restart = _
    rw [Site.restart]
    cases h.daemon.shutdown.restart <;> rfl

/-- What a turn can do, and what it records. -/
inductive Turned (h : Host) : Turn → Host → List Record → Prop
  | uploaded {e : Turn} {trigger : Trigger} (he : e.trigger? = some trigger) :
    Turned h e ⟨(h.daemon.upload h.collector trigger).2.1,
      (h.daemon.upload h.collector trigger).2.2⟩ []
  | recorded (s : Session) (r : Request) (x : Record)
      (hx : h.daemon.buffer.accepts x = true) :
    Turned h (.request s r) { h with daemon := h.daemon.push x } [x]
  | changed {e : Turn} {d : Daemon} (he : Effect h.daemon d) :
    Turned h e { h with daemon := d } []
  | flushed : Turned h .flush { h with daemon := h.daemon.flush.2 } []
  | restarted {d : Daemon} (hr : h.daemon.shutdown.restart = .ok d) :
    Turned h .reboot { h with daemon := d } []
  | stopped : Turned h .reboot { h with daemon := h.daemon.shutdown } []

theorem exists_turned (h : Host) (e : Turn) : ∃ new, h.Turned e (h.turn e) new := by
  cases e with
  | request s r =>
    by_cases hr : r = .uploadEvents
    · subst hr
      rw [turn, host_dispatch, execute]
      exact ⟨_, .uploaded rfl⟩
    · rw [turn, dispatch_beside h.daemon h.collector s hr]
      rcases dispatch_cases h.daemon .fresh s hr with ⟨-, x, hx⟩ | he
      · rw [hx]
        by_cases hacc : h.daemon.buffer.accepts x = true
        · exact ⟨_, .recorded s r x hacc⟩
        · rw [push, Buffer.push, if_neg hacc]
          exact ⟨_, .changed (.refl h.daemon)⟩
      · exact ⟨_, .changed he⟩
  | scheduled => exact ⟨_, .uploaded rfl⟩
  | disconnect client => exact ⟨_, .changed (effect_disconnect _ client)⟩
  | advance nanoseconds => exact ⟨_, .changed (effect_advance _ nanoseconds)⟩
  | setToday date => exact ⟨_, .changed (effect_setToday _ date)⟩
  | rollover => exact ⟨_, .changed (effect_checkRollover _)⟩
  | flush => exact ⟨_, .flushed⟩
  | reboot =>
    rw [turn]
    split
    · next hr => exact ⟨_, .restarted hr⟩
    · exact ⟨_, .stopped⟩

variable {h' h'' : Host} {new new' : List Record}

theorem Turned.gained {e : Turn} (ht : h.Turned e h' new) (hc : h.collector.Calm) :
    gained h h' = new := by
  cases ht with
  | uploaded => exact gained_eq_nil (lighter_upload _ hc _)
  | recorded s r x hx =>
    have hb : (h.daemon.push x).buffer.records = h.daemon.buffer.records ++ _ :=
      h.daemon.buffer.records_push x
    rw [Host.gained, hb, List.drop_left, if_pos hx]
  | changed he => exact gained_eq_nil (Lighter.of_effect he)
  | flushed => exact gained_eq_nil (lighter_flush _)
  | restarted hr => exact gained_eq_nil ((lighter_shutdown _).trans (lighter_restarted hr))
  | stopped => exact gained_eq_nil (lighter_shutdown _)

theorem Turned.calm {e : Turn} (ht : h.Turned e h' new) (hc : h.collector.Calm) :
    h'.collector.Calm := by
  cases ht with
  | uploaded => exact calm_upload _ hc _
  | recorded | changed | flushed | restarted | stopped => exact hc

theorem Whole.turn (hw : h.Whole) (e : Turn) : (h.turn e).Whole := by
  obtain ⟨acts, hacts⟩ := exists_run_turn hw.calm e
  have hmodest : (Site.beside h.daemon .idle h.collector).Modest :=
    ⟨hw.modest, fun _ hf => nomatch hf⟩
  have hkept {P : Daemon → Prop} (hP : Invariant P) (hd : P h.daemon) : P (h.turn e).daemon := by
    have hrun := Site.kept_run hP (w := Site.beside h.daemon .idle h.collector) hd acts
    rw [hacts] at hrun
    exact hrun
  have hrun := Site.modest_run hmodest acts
  rw [hacts] at hrun
  obtain ⟨_, hturned⟩ := h.exists_turned e
  exact ⟨hkept invariant_discreet hw.discreet, hkept invariant_cache hw.cache,
    hkept invariant_buffer hw.buffer, hrun.daemon, hturned.calm hw.calm⟩

/-- What a host delivers on the way to another one that records some more, and that nothing else comes
or goes. -/
structure Delivers (h h' : Host) (sent new : List Record) : Prop where
  table : h'.daemon.cache.table.isSome = true
  batched : ∃ bs, h'.collector.accepted = h.collector.accepted ++ bs ∧ Batched bs sent
  conserved : (sent ++ h'.daemon.pending).Perm (h.daemon.pending ++ new)

def InOrder (h h' : Host) (sent new : List Record) : Prop :=
  sent ++ h'.daemon.pending = h.daemon.pending ++ new

variable {d : Daemon} {t' : CacheTable}

theorem Whole.kept (hw : h.Whole) (ht : h.daemon.cache.table = some t) : h.daemon.Kept t :=
  ⟨hw.discreet, ht, hw.cache t ht, hw.buffer.small⟩

theorem delivers_unsent (ht : d.cache.table.isSome = true)
    (hpending : d.pending = h.daemon.pending ++ new) :
    Delivers h { h with daemon := d } [] new ∧ InOrder h { h with daemon := d } [] new :=
  ⟨⟨ht, ⟨[], (List.append_nil _).symm, .nil⟩, .of_eq hpending⟩, hpending⟩

theorem delivers_still (ht : h.daemon.cache.table = some t) (hs : Still h.daemon d) :
    Delivers h { h with daemon := d } [] [] ∧ InOrder h { h with daemon := d } [] [] := by
  refine delivers_unsent ?_ ?_
  · rw [hs.cache, ht]
    rfl
  · rw [List.append_nil, pending, pending, hs.cache, hs.buffer]

theorem delivers_saved (ht : h.daemon.cache.table = some t) (ht' : d.cache.table = some t')
    (hrecords : recordsOf t'.rows = recordsOf t.rows ++ h.daemon.buffer.records)
    (hempty : d.buffer.records = []) :
    Delivers h { h with daemon := d } [] [] ∧ InOrder h { h with daemon := d } [] [] := by
  refine delivers_unsent ?_ ?_
  · rw [ht']
    rfl
  · rw [List.append_nil, pending, pending, Cache.rows_of_table ht', Cache.rows_of_table ht,
      hrecords, hempty, List.append_nil]

theorem delivers_pushed (ht : h.daemon.cache.table = some t) {x : Record}
    (hx : h.daemon.buffer.accepts x = true) :
    Delivers h { h with daemon := h.daemon.push x } [] [x] ∧
      InOrder h { h with daemon := h.daemon.push x } [] [x] := by
  have hb : (h.daemon.push x).buffer.records = h.daemon.buffer.records ++ _ :=
    h.daemon.buffer.records_push x
  rw [if_pos hx] at hb
  refine delivers_unsent ?_ ?_
  · change h.daemon.cache.table.isSome = true
    rw [ht]
    rfl
  · rw [pending, pending, hb, List.append_assoc]
    rfl

theorem delivers_ends {limit : Option Nat} {f : InFlight} {d₁ : Daemon} {front : List CacheRow}
    {r : Except RecorderError Upload.Stats × Daemon × Collector}
    (ht : h.daemon.cache.table = some t) (hs : Selected h.daemon t limit f d₁ front)
    (hk : d₁.Kept t) (hcur : d₁.gate.current f.generation = true)
    (hsmall : ∀ e ∈ f.buffered, e.cost ≤ maxRecordCost)
    (hends : Ends d₁ h.collector f r) (hroom : r.1.isOk = false → f.buffered ≠ [] →
      t.size + totalCost f.buffered ≤ d₁.cache.limit) :
    ∃ sent, Delivers h ⟨r.2.1, r.2.2⟩ sent [] ∧
      (r.1.isOk = true → sent = recordsOf front ++ f.buffered) ∧
      (front = t.rows → InOrder h ⟨r.2.1, r.2.2⟩ sent []) := by
  obtain ⟨rest, hrest⟩ := hs.cached.front
  have hpending : h.daemon.pending =
      recordsOf front ++ recordsOf rest ++ (f.buffered ++ d₁.buffer.records) := by
    rw [pending, Cache.rows_of_table ht, ← hrest, recordsOf_append, hs.rest]
  cases hends with
  | nothing he =>
    -- an empty batch was made of no records
    have hnone : recordsOf front ++ f.buffered = [] := by
      have hperm := Batch.records_ofRecords h.daemon.machine (recordsOf front ++ f.buffered)
        (f.rows.map Report.ofRow)
      rw [← hs.batch, Batch.records_of_isEmpty he] at hperm
      exact hperm.symm.eq_nil
    have hbuffered := hs.rest
    rw [(List.append_eq_nil_iff.1 hnone).2, List.nil_append] at hbuffered
    have hsame : InOrder h ⟨d₁, h.collector⟩ [] [] := by
      rw [InOrder, List.nil_append, List.append_nil, pending, pending, hs.cache, hbuffered]
    refine ⟨[], ⟨?_, ⟨[], (List.append_nil _).symm, .nil⟩, .of_eq hsame⟩, fun _ => hnone.symm,
      fun _ => hsame⟩
    rw [hk.table]
    rfl
  | delivered stats he hstill hc number clock ha =>
    have hk' := hk.still hstill (hk.discreet.effect he)
    obtain ⟨hkept, hbuffer⟩ := hk'.completeDelivered (hstill.current _ hcur)
    have hrows : (t.delete f.cachedIds).rows = rest := by
      rw [CacheTable.delete, hs.cachedIds]
      dsimp only
      rw [Cache.filter_front hk.sound hs.cached.front, ← hrest, List.drop_left]
    refine ⟨recordsOf front ++ f.buffered, ⟨?_, ⟨[f.batch.stamp number clock], ha, ?_⟩, ?_⟩,
      fun _ => rfl, fun hall => ?_⟩
    · rw [hkept.table]
      rfl
    · rw [hs.batch]
      exact batched_one _ _ _ _ _
    · rw [hpending, pending, hkept.rows, hrows, hbuffer, hstill.buffer, List.append_nil,
        List.append_assoc, List.append_assoc]
      exact (List.perm_append_comm_assoc _ _ _).append_left _
    · have hnone : rest = [] := by
        rw [hall] at hrest
        exact List.append_cancel_left (hrest.trans (List.append_nil _).symm)
      subst hnone
      rw [InOrder, hpending, pending, hkept.rows, hrows, hbuffer, hstill.buffer, List.append_nil,
        List.append_assoc, List.append_assoc]
      rfl
  | @failed e d' c' he hstill hc _ ha =>
    have hk' := hk.still hstill (hk.discreet.effect he)
    rw [← hstill.cache] at hroom
    obtain ⟨t', hkept, hgrows, hbuffer⟩ :=
      hk'.completeFailed (hstill.current _ hcur) hsmall (hroom rfl)
    have hsame : InOrder h ⟨d'.completeFailed f, c'⟩ [] [] := by
      rw [InOrder, hpending, pending, hkept.rows, hgrows.recordsOf_eq, hbuffer, hstill.buffer,
        ← hrest, recordsOf_append, List.append_nil, List.nil_append,
        List.append_assoc (recordsOf front ++ recordsOf rest)]
    refine ⟨[], ⟨?_, ⟨[], by rw [List.append_nil]; exact ha, .nil⟩, .of_eq hsame⟩,
      fun hok => absurd hok Bool.false_ne_true, fun _ => hsame⟩
    rw [hkept.table]
    rfl

theorem exists_ends (hw : h.Whole) (ht : h.daemon.cache.table = some t)
    (hup : h.daemon.gate.uploadAllowed = true) (hrows : h.daemon.closedRows.isOk = true)
    (trigger : Trigger) :
    ∃ f d₁ front, Selected h.daemon t (h.daemon.uploadLimit trigger) f d₁ front ∧ d₁.Kept t ∧
      d₁.gate.current f.generation = true ∧ d₁.config = h.daemon.config ∧
      (∀ e ∈ f.buffered, e.cost ≤ maxRecordCost) ∧
      Ends d₁ h.collector f (h.daemon.upload h.collector trigger) := by
  obtain ⟨rows, hrows⟩ : ∃ rows, h.daemon.closedRows = .ok rows := by
    cases hr : h.daemon.closedRows with
    | ok rows => exact ⟨rows, rfl⟩
    | error e =>
      rw [hr] at hrows
      cases hrows
  obtain ⟨hcheck, hcur⟩ := Site.checkUpload_of_allowed hup
  have hencoded := hw.modest.cached
  rw [Cache.rows_of_table ht] at hencoded
  obtain ⟨f, d₁, front, hgather, hnoted, hgate, hconfig, hs⟩ := exists_selected ht hencoded.readable
    hw.buffer.total hcur hrows (h.daemon.uploadLimit trigger)
  have hprepare : h.daemon.prepare trigger = (.ok f, d₁) := by
    rw [prepare, beginUpload, hcheck]
    exact hgather
  have hd := hw.discreet.gather h.daemon.gate.generation (h.daemon.uploadLimit trigger)
  have hsmall : ∀ e ∈ f.buffered ++ d₁.buffer.records, e.cost ≤ maxRecordCost := by
    rw [hs.rest]
    exact hw.buffer.small
  obtain ⟨hb, hb'⟩ := List.forall_mem_append.1 hsmall
  rw [hgather] at hd
  refine ⟨f, d₁, front, hs, ⟨hd, hs.cache ▸ ht, hw.cache t ht, hb'⟩, ?_, hconfig, hb,
    ends_upload hw.calm hprepare⟩
  rw [hgate, hnoted]
  exact hcur

theorem delivers_upload (hw : h.Whole) (ht : h.daemon.cache.table = some t)
    (hrows : h.daemon.gate.uploadAllowed = true → h.daemon.closedRows.isOk = true)
    (trigger : Trigger)
    (hroom : (h.daemon.upload h.collector trigger).1.isOk = false →
      h.daemon.buffer.records ≠ [] →
        t.size + totalCost h.daemon.buffer.records ≤ h.daemon.cache.limit) :
    ∃ sent, Delivers h ⟨(h.daemon.upload h.collector trigger).2.1,
        (h.daemon.upload h.collector trigger).2.2⟩ sent [] ∧
      (trigger = .requested → InOrder h ⟨(h.daemon.upload h.collector trigger).2.1,
        (h.daemon.upload h.collector trigger).2.2⟩ sent []) := by
  obtain ⟨generation, hb⟩ | ⟨-, e, hb⟩ | ⟨e, hb⟩ := h.daemon.beginUpload_cases
  · have hup := (Site.beginUpload_ok hb).1
    obtain ⟨f, d₁, front, hs, hk, hcur, -, hsmall, hends⟩ :=
      exists_ends hw ht hup (hrows hup) trigger
    have hcost := congrArg totalCost hs.rest
    rw [totalCost, sumOf_append] at hcost
    obtain ⟨sent, hdelivers, -, horder⟩ := delivers_ends ht hs hk hcur hsmall hends (by
      intro hfailed hne
      have hwaits : h.daemon.buffer.records ≠ [] := by
        rw [← hs.rest]
        exact List.append_ne_nil_of_left_ne_nil hne _
      have hle := hroom hfailed hwaits
      rw [hs.cache]
      rw [totalCost] at hle hcost ⊢
      omega)
    refine ⟨sent, hdelivers, fun htrigger => horder ?_⟩
    subst htrigger
    exact hs.cached.eq_of_none
  · have hprepare : h.daemon.prepare trigger = (.error e, h.daemon.flush.2) := by rw [prepare, hb]
    have hu := upload_of_refused (c := h.collector) hprepare
    rw [hu] at hroom ⊢
    obtain ⟨t', hk, hg, hempty⟩ := (hw.kept ht).flush (hroom rfl)
    obtain ⟨hdelivers, horder⟩ := delivers_saved ht hk.table hg.recordsOf_eq hempty
    exact ⟨[], hdelivers, fun _ => horder⟩
  · have hprepare : h.daemon.prepare trigger = (.error e, h.daemon) := by rw [prepare, hb]
    have hu := upload_of_refused (c := h.collector) hprepare
    rw [hu]
    obtain ⟨hdelivers, horder⟩ := delivers_still ht (.refl h.daemon)
    exact ⟨[], hdelivers, fun _ => horder⟩

theorem handed_of_trigger {e : Turn} {trigger : Trigger} (he : e.trigger? = some trigger) :
    h.handed e = if (h.daemon.upload h.collector trigger).1.isOk then []
      else h.daemon.buffer.records := by
  cases e with
  | request s r =>
    cases r with
    | uploadEvents =>
      cases he
      rfl
    | _ => cases he
  | scheduled =>
    cases he
    rfl
  | _ => cases he

theorem eq_scheduled_of_trigger {e : Turn} (he : e.trigger? = some .scheduled) :
    e = .scheduled := by
  cases e with
  | request s r => cases r <;> cases he
  | scheduled => rfl
  | _ => cases he

/-- Each turn delivers some of what waits and leaves the rest, with what it recorded. Unless it is a
scheduled upload, that comes from the front. -/
theorem delivers_turn (hw : h.Whole) (ht : h.daemon.cache.table.isSome = true) {e : Turn}
    (hp : h.Peaceful e) :
    ∃ sent, Delivers h (h.turn e) sent (gained h (h.turn e)) ∧
      (e ≠ .scheduled → InOrder h (h.turn e) sent (gained h (h.turn e))) := by
  obtain ⟨t, ht⟩ := Option.isSome_iff_exists.1 ht
  obtain ⟨new, hturned⟩ := h.exists_turned e
  have hconsent := hp.consent
  have hroom := hp.room
  rw [hturned.gained hw.calm]
  rw [Cache.rows_of_table ht] at hroom
  generalize h.turn e = h' at hturned hconsent ⊢
  have hunsent (hu : Delivers h h' [] new ∧ InOrder h h' [] new) :
      ∃ sent, Delivers h h' sent new ∧ (e ≠ .scheduled → InOrder h h' sent new) :=
    ⟨[], hu.1, fun _ => hu.2⟩
  cases hturned with
  | @uploaded _ trigger he =>
    have hrows := hp.readable (by rw [he]; rfl)
    rw [handed_of_trigger he] at hroom
    obtain ⟨sent, hdelivers, horder⟩ := delivers_upload hw ht hrows trigger (by
      intro hfailed
      rw [if_neg (by rw [hfailed]; exact Bool.false_ne_true)] at hroom
      exact hroom)
    refine ⟨sent, hdelivers, fun hne => horder ?_⟩
    cases trigger with
    | requested => rfl
    | scheduled => exact absurd (eq_scheduled_of_trigger he) hne
  | recorded s r x hx => exact hunsent (delivers_pushed ht hx)
  | changed he => exact hunsent (delivers_still ht (.of_effect he hconsent))
  | flushed =>
    obtain ⟨t', hk, hg, hempty⟩ := (hw.kept ht).flush hroom
    exact hunsent (delivers_saved ht hk.table hg.recordsOf_eq hempty)
  | restarted hr =>
    obtain ⟨t', hk, hg, hempty⟩ := (hw.kept ht).shutdown hroom
    obtain ⟨t'', hk', hsame, hempty'⟩ := hk.restart hr fun hon =>
      hconsent ((enabled_shutdown h.daemon).symm.trans hon)
    exact hunsent (delivers_saved ht hk'.table (hsame.trans hg.recordsOf_eq) hempty')
  | stopped =>
    obtain ⟨t', hk, hg, hempty⟩ := (hw.kept ht).shutdown hroom
    exact hunsent (delivers_saved ht hk.table hg.recordsOf_eq hempty)

variable {sent sent' : List Record}

theorem Delivers.trans (hd : Delivers h h' sent new) (hd' : Delivers h' h'' sent' new') :
    Delivers h h'' (sent ++ sent') (new ++ new') := by
  obtain ⟨bs, hbs, hbatched⟩ := hd.batched
  obtain ⟨bs', hbs', hbatched'⟩ := hd'.batched
  refine ⟨hd'.table, ⟨bs ++ bs', ?_, hbatched.append hbatched'⟩, ?_⟩
  · rw [hbs', hbs, List.append_assoc]
  · have hrest := hd'.conserved.append_left sent
    have hfirst := hd.conserved.append_right new'
    rw [List.append_assoc] at hfirst
    rw [List.append_assoc, ← List.append_assoc h.daemon.pending]
    exact hrest.trans hfirst

theorem InOrder.trans (ho : InOrder h h' sent new) (ho' : InOrder h' h'' sent' new') :
    InOrder h h'' (sent ++ sent') (new ++ new') := by
  rw [InOrder] at ho ho' ⊢
  rw [List.append_assoc, ho', ← List.append_assoc, ho, List.append_assoc]

theorem delivers_turns (hw : h.Whole) (ht : h.daemon.cache.table.isSome = true) {es : List Turn}
    (hes : AllPeaceful h es) :
    (h.turns es).Whole ∧ ∃ sent, Delivers h (h.turns es) sent (accepts h es) ∧
      (.scheduled ∉ es → InOrder h (h.turns es) sent (accepts h es)) := by
  induction es generalizing h with
  | nil =>
    refine ⟨hw, [], ⟨ht, ⟨[], (List.append_nil _).symm, .nil⟩, ?_⟩, fun _ => ?_⟩
    · rw [accepts, List.append_nil]
      exact .refl _
    · rw [InOrder, accepts, List.append_nil]
      rfl
  | cons e es ih =>
    obtain ⟨sent, hturn, horder⟩ := delivers_turn hw ht hes.1
    obtain ⟨hw', sent', hdelivers, horder'⟩ := ih (hw.turn e) hturn.table hes.2
    refine ⟨hw', sent ++ sent', hturn.trans hdelivers, fun hn => ?_⟩
    rw [List.mem_cons, not_or] at hn
    exact (horder fun he => hn.1 he.symm).trans (horder' hn.2)

end Host

end Protocol

end Telemetry

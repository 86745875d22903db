import Telemetry.Proofs.Daemon.Custody

namespace Telemetry

open Consent Daemon Event Protocol Upload

/-- The buffered part of an upload that nobody has accepted. -/
def Stage.aboard : Stage → List Record
  | waiting f _ => f.buffered
  | sending f .. => f.buffered
  | ended f false => f.buffered
  | _ => []

/-- The numbers of the cached rows that were delivered and are still to be removed. -/
def Stage.settled : Stage → List Nat
  | ended f true => f.cachedIds
  | _ => []

theorem Stage.of_flight_eq_none {s : Stage} (h : s.flight? = none) :
    s.aboard = [] ∧ s.settled = [] := by
  cases s with
  | idle | checked => exact ⟨rfl, rfl⟩
  | waiting | sending | ended => cases h

inductive Move
  | act (a : Act)
  | reboot
  deriving DecidableEq, Repr

/-- A table is not lost, an upload is seen through, and a restart follows a shutdown. -/
def Move.orderly : Move → Bool
  | act .loseTally | act .loseCache | act .abandon | act .restart => false
  | _ => true

namespace Site

def undelivered (w : Site) : List Record :=
  recordsOf (w.daemon.cache.rows.filter (·.id ∉ w.stage.settled))

def delivered (w : Site) : List Record := w.accepted.flatMap Batch.records

/-- Everything in each of the four places. -/
def places (w : Site) : List Record :=
  w.daemon.buffer.records ++ (w.undelivered ++ (w.stage.aboard ++ w.delivered))

def move (w : Site) : Move → Site
  | .act a => w.step a
  | .reboot => (w.step .shutdown).step .restart

/-- What a move hands to the cache. -/
def handed (w : Site) : Move → List Record
  | .reboot | .act .shutdown | .act .flush => w.daemon.buffer.records
  | .act (.check _) | .act (.request _ .uploadEvents) =>
    match w.stage, w.daemon.gate.checkUpload with
    | .idle, .error .uploadingDisabled => w.daemon.buffer.records
    | _, _ => []
  | .act .complete =>
    match w.stage with
    | .ended f false => f.buffered
    | _ => []
  | _ => []

/-- A move without a fault of the stores, within the limit of the cache, and not a revocation. -/
structure Peaceful (w : Site) (m : Move) : Prop where
  orderly : m.orderly = true
  landed : m = .reboot → w.stage.flight? = none
  readable : m = .act .gather → w.daemon.closedRows.isOk = true
  room : w.handed m ≠ [] → sumOf (fun r => r.blob.length) w.daemon.cache.rows +
    totalCost (w.handed m) ≤ w.daemon.cache.limit
  consent : w.daemon.gate.enabled = true → (w.move m).daemon.gate.enabled = true

instance (w : Site) (m : Move) : Decidable (w.Peaceful m) :=
  decidable_of_iff (m.orderly = true ∧ (m = .reboot → w.stage.flight? = none) ∧
      (m = .act .gather → w.daemon.closedRows.isOk = true) ∧
      (w.handed m ≠ [] → sumOf (fun r => r.blob.length) w.daemon.cache.rows +
        totalCost (w.handed m) ≤ w.daemon.cache.limit) ∧
      (w.daemon.gate.enabled = true → (w.move m).daemon.gate.enabled = true))
    ⟨fun ⟨ho, hl, hr, hm, hc⟩ => ⟨ho, hl, hr, hm, hc⟩, fun ⟨ho, hl, hr, hm, hc⟩ => ⟨ho, hl, hr, hm, hc⟩⟩

/-- What the buffer accepted: what stands behind what it had. -/
def gained (w w' : Site) : List Record :=
  w'.daemon.buffer.records.drop w.daemon.buffer.records.length

structure Secure (w : Site) (t : CacheTable) : Prop where
  kept : w.daemon.Kept t
  aboard : ∀ f, w.stage.flight? = some f → Aboard w.daemon t f
  sending : ∀ f left b, w.stage = .sending f left b → b.records = f.batch.records

def Balanced (w w' : Site) : Prop :=
  (∃ t, Secure w' t) ∧ w'.places.Perm (w.places ++ gained w w')

variable {w : Site} {d : Daemon} {t t' : CacheTable}

theorem Secure.undelivered_eq (h : Secure w t) :
    w.undelivered = recordsOf (t.rows.filter (·.id ∉ w.stage.settled)) := by
  rw [undelivered, h.kept.rows]

theorem Secure.settled_lt (h : Secure w t) : ∀ i ∈ w.stage.settled, i < t.nextId := by
  intro i hi
  cases hs : w.stage with
  | ended f delivered =>
    rw [hs] at hi
    cases delivered with
    | true => exact (h.aboard f (by rw [hs]; rfl)).numbers i hi
    | false => cases hi
  | idle | checked | waiting | sending =>
    rw [hs] at hi
    cases hi

theorem Secure.places_eq (h : Secure w t) (hs : w.stage.settled = []) :
    w.places = w.daemon.buffer.records ++ (recordsOf t.rows ++ (w.stage.aboard ++ w.delivered)) := by
  have hall : t.rows.filter (·.id ∉ ([] : List Nat)) = t.rows :=
    List.filter_eq_self.2 fun r _ => by simp
  rw [places, h.undelivered_eq, hs, hall]

theorem Secure.of_landed (hk : d.Kept t) {s : Stage} (hs : s.flight? = none) :
    Secure { w with daemon := d, stage := s } t := by
  refine ⟨hk, ?_, ?_⟩
  · intro f hf
    change s.flight? = some f at hf
    rw [hs] at hf
    cases hf
  · intro f left b hb
    change s = _ at hb
    rw [hb] at hs
    cases hs

theorem gained_eq {w' : Site} (new : List Record)
    (h : w'.daemon.buffer.records = w.daemon.buffer.records ++ new) : gained w w' = new := by
  rw [gained, h, List.drop_left]

theorem gained_eq_nil {w' : Site}
    (h : w'.daemon.buffer.records.length ≤ w.daemon.buffer.records.length) :
    gained w w' = [] := List.drop_eq_nil_of_le h

theorem Secure.shift (h : Secure w t) (saved new : List Record) (hk : d.Kept t')
    (hg : t.Grows t' saved)
    (hcur : ∀ generation, w.daemon.gate.current generation = true →
      d.gate.current generation = true)
    (hperm : (d.buffer.records ++ saved).Perm (w.daemon.buffer.records ++ new)) :
    Secure { w with daemon := d } t' ∧
      ({ w with daemon := d } : Site).places.Perm (w.places ++ new) := by
  have hs : Secure { w with daemon := d } t' :=
    ⟨hk, fun f hf => (h.aboard f hf).grows hcur hg, h.sending⟩
  refine ⟨hs, ?_⟩
  have hu : ({ w with daemon := d } : Site).undelivered = w.undelivered ++ saved := by
    rw [hs.undelivered_eq, h.undelivered_eq]
    exact (hg.divide h.settled_lt).2
  rw [List.perm_iff_count] at hperm ⊢
  intro x
  have hx := hperm x
  simp only [places, hu, List.count_append] at hx ⊢
  change _ + (_ + _ + (List.count x w.stage.aboard + List.count x w.delivered)) = _
  omega

theorem Secure.still (h : Secure w t) (hs : Still w.daemon d) (hd : d.Discreet) :
    Balanced w { w with daemon := d } := by
  have hb : d.buffer.records = w.daemon.buffer.records := by rw [hs.buffer]
  obtain ⟨hsec, hperm⟩ := h.shift [] [] (h.kept.still hs hd) (.refl t) hs.current (by rw [hb])
  refine ⟨⟨t, hsec⟩, ?_⟩
  rw [gained_eq [] (by rw [List.append_nil]; exact hb)]
  exact hperm

theorem Secure.refl (h : Secure w t) : Balanced w w := h.still (.refl _) h.kept.discreet

theorem Secure.saved (h : Secure w t) (hk : d.Kept t') (hg : t.Grows t' w.daemon.buffer.records)
    (hempty : d.buffer.records = [])
    (hcur : ∀ generation, w.daemon.gate.current generation = true →
      d.gate.current generation = true) : Balanced w { w with daemon := d } := by
  obtain ⟨hsec, hperm⟩ := h.shift w.daemon.buffer.records [] hk hg hcur
    (by rw [hempty, List.append_nil]; exact .refl _)
  refine ⟨⟨t', hsec⟩, ?_⟩
  rw [gained_eq_nil (by rw [hempty]; exact Nat.zero_le _)]
  exact hperm

theorem Secure.pushed (h : Secure w t) (hon : w.daemon.gate.enabled = true) (e : Record) :
    Balanced w { w with daemon := w.daemon.push e } := by
  have hb : (w.daemon.push e).buffer.records = w.daemon.buffer.records ++ _ :=
    w.daemon.buffer.records_push e
  have hd : (w.daemon.push e).Discreet := h.kept.discreet.of_enabled rfl hon
  have hk : (w.daemon.push e).Kept t :=
    ⟨hd, h.kept.table, h.kept.sound, Buffer.small_push h.kept.small e⟩
  obtain ⟨hsec, hperm⟩ := h.shift [] _ hk (.refl t) (fun _ hc => hc) (by rw [List.append_nil, hb])
  refine ⟨⟨t, hsec⟩, ?_⟩
  rw [gained_eq _ hb]
  exact hperm

theorem Secure.room (h : Secure w t) {m : Move} (hm : w.Peaceful m) (hne : w.handed m ≠ []) :
    t.size + totalCost (w.handed m) ≤ w.daemon.cache.limit := by
  have hroom := hm.room hne
  rw [h.kept.rows] at hroom
  exact hroom

theorem Secure.flush (h : Secure w t)
    (hroom : w.daemon.buffer.records ≠ [] →
      t.size + totalCost w.daemon.buffer.records ≤ w.daemon.cache.limit) :
    Balanced w { w with daemon := w.daemon.flush.2 } := by
  obtain ⟨t', hk, hg, hempty⟩ := h.kept.flush hroom
  exact h.saved hk hg hempty fun g hc => by rw [(shifted_flush _).gate]; exact hc

theorem Secure.shutdown (h : Secure w t)
    (hroom : w.daemon.buffer.records ≠ [] →
      t.size + totalCost w.daemon.buffer.records ≤ w.daemon.cache.limit) :
    Balanced w { w with daemon := w.daemon.shutdown } := by
  obtain ⟨t', hk, hg, hempty⟩ := h.kept.shutdown hroom
  refine h.saved hk hg hempty fun g hc => ?_
  have hs := (still_commitTimers w.daemon).current g hc
  have hgate : w.daemon.commitTimers.2.flush.2.gate = w.daemon.commitTimers.2.gate :=
    (shifted_flush _).gate
  change w.daemon.commitTimers.2.flush.2.gate.current g = true
  rw [hgate]
  exact hs

theorem Secure.carried (h : Secure w t) (hs : Still w.daemon d) (hd : d.Discreet) {s : Stage}
    (sent : List Batch) (hflight : ∀ f, s.flight? = some f → w.stage.flight? = some f)
    (haboard : s.aboard = w.stage.aboard) (hsettled : s.settled = w.stage.settled)
    (hsending : ∀ f left b, s = .sending f left b → b.records = f.batch.records) :
    Balanced w { w with daemon := d, stage := s, sent := sent } := by
  have hsec : Secure { w with daemon := d, stage := s, sent := sent } t := by
    refine ⟨h.kept.still hs hd, fun f hf => ?_, hsending⟩
    exact (h.aboard f (hflight f hf)).grows hs.current (.refl t)
  have hu : ({ w with daemon := d, stage := s, sent := sent } : Site).undelivered = w.undelivered := by
    rw [hsec.undelivered_eq, h.undelivered_eq, ← hsettled]
  refine ⟨⟨t, hsec⟩, ?_⟩
  have hlen : d.buffer.records.length ≤ w.daemon.buffer.records.length :=
    Nat.le_of_eq (by rw [hs.buffer])
  rw [gained_eq_nil hlen, List.append_nil, places, places, hu]
  dsimp only
  rw [hs.buffer, haboard]
  exact .refl _

theorem Secure.landed (h : Secure w t) (hw : w.stage.flight? = none) {s : Stage}
    (hs : s.flight? = none) : Balanced w { w with stage := s } := by
  obtain ⟨haboard, hsettled⟩ := Stage.of_flight_eq_none hw
  obtain ⟨haboard', hsettled'⟩ := Stage.of_flight_eq_none hs
  refine h.carried (.refl _) h.kept.discreet w.sent ?_ (haboard'.trans haboard.symm)
    (hsettled'.trans hsettled.symm) ?_
  · intro f hf
    rw [hs] at hf
    cases hf
  · intro f left b hb
    rw [hb] at hs
    cases hs

end Site

end Telemetry

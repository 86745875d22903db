import Telemetry.Proofs.Daemon.Counting
import Telemetry.Proofs.Daemon.Places
import Telemetry.Proofs.Tally.Settlement

namespace Telemetry

open Codec Daemon Event Protocol Tally Upload

def Upload.Report.key (r : Report) : Key := ⟨r.period, r.event, r.user.toNat, r.payload.store⟩

/-- What a batch reports under a key. -/
def Upload.Batch.reported (b : Batch) (k : Key) : Nat :=
  sumOf (fun r => if r.key = k then r.count.toNat else 0) b.tallies

/-- The rows that were delivered and are still to be settled. -/
def Stage.unsettled : Stage → List Row
  | ended f true => f.rows
  | _ => []

theorem Stage.unsettled_of_flight {s : Stage} (h : s.flight? = none) : s.unsettled = [] := by
  cases s with
  | idle | checked => rfl
  | waiting | sending | ended => cases h

inductive Posting
  | move (m : Move)
  | commit (is : List Increment)
  deriving DecidableEq, Repr

def Posting.orderly : Posting → Bool
  | move m => m.orderly
  | commit _ => true

namespace Site

def post (w : Site) : Posting → Site
  | .move m => w.move m
  | .commit is =>
    { w with daemon := (w.daemon.settled (w.daemon.whileEnabled (w.daemon.commit is))).2 }

def counts (w : Site) : Posting → List Increment
  | .move (.act a) => w.daemon.counts a
  | .move .reboot => w.daemon.counts .shutdown
  | .commit is => if w.daemon.gate.enabled then is else []

/-- What the accepted batches reported under a key. -/
def reported (w : Site) (k : Key) : Nat := sumOf (·.reported k) w.accepted

/-- What was delivered of a key and is still to be taken from its counter. -/
def owed (w : Site) (k : Key) : Nat := Table.reported w.stage.unsettled k

/-- A posting without a fault of the stores that is no revocation. A payload takes fewer octets than
its length can count. -/
structure Undisturbed (w : Site) (e : Posting) : Prop where
  orderly : e.orderly = true
  landed : e = .move .reboot → w.stage.flight? = none
  consent : w.daemon.gate.enabled = true → (w.post e).daemon.gate.enabled = true
  payloads : ∀ i ∈ w.counts e, i.payload.store.length < capacity 8

instance (w : Site) (e : Posting) : Decidable (w.Undisturbed e) :=
  decidable_of_iff (e.orderly = true ∧ (e = .move .reboot → w.stage.flight? = none) ∧
      (w.daemon.gate.enabled = true → (w.post e).daemon.gate.enabled = true) ∧
      ∀ i ∈ w.counts e, i.payload.store.length < capacity 8)
    ⟨fun ⟨ho, hl, hc, hp⟩ => ⟨ho, hl, hc, hp⟩, fun ⟨ho, hl, hc, hp⟩ => ⟨ho, hl, hc, hp⟩⟩

/-- The rows that an upload carries stand in the table, and its batch reports them. -/
structure Carried (d : Daemon) (t : Table) (f : InFlight) : Prop where
  current : d.gate.current f.generation = true
  holds : t.Holds f.rows
  tallies : f.batch.tallies = f.rows.map Report.ofRow

structure Books (w : Site) (t : Table) : Prop where
  discreet : w.daemon.Discreet
  table : w.daemon.tally.table = some t
  cached : w.daemon.cache.table.isSome
  sound : t.Sound
  genuine : ∀ s ∈ t, s.key.Genuine
  carried : ∀ f, w.stage.flight? = some f → Carried w.daemon t f
  sending : ∀ f left b, w.stage = .sending f left b → b.tallies = f.batch.tallies

def Posted (w w' : Site) (t : Table) (is : List Increment) : Prop :=
  ∃ t', Books w' t' ∧ ∀ k, t'.counter k ≤ t.counter k + Table.counted is k ∧
    t'.counter k + w'.reported k + w.owed k =
      t.counter k + Table.counted is k + w.reported k + w'.owed k

theorem Posted.of_books {w w' : Site} {t t' : Table} (h : Books w' t')
    (hk : ∀ k, t'.counter k ≤ t.counter k ∧
      t'.counter k + w'.reported k + w.owed k = t.counter k + w.reported k + w'.owed k) :
    Posted w w' t [] := by
  refine ⟨t', h, fun k => ?_⟩
  have hnone : Table.counted [] k = 0 := rfl
  obtain ⟨hle, heq⟩ := hk k
  omega

/-- What increments count under a key does not take a counter past 64 bits. -/
def Bounded (t : Table) (is : List Increment) : Prop :=
  ∀ k, t.counter k + Table.counted is k < 2 ^ 63

variable {w : Site} {d : Daemon} {t : Table} {is : List Increment}

theorem bounded_of_sum (h : 2 * sumOf (·.amount.toNat) is < 2 ^ 63) : Bounded [] is := by
  intro k
  have hle := Table.counted_le is k
  change (0 : Int) + Table.counted is k < _
  omega

theorem Books.bounded (h : Books w t) : Bounded t [] := by
  intro k
  have hfits := h.sound.fits k
  rw [fits_iff] at hfits
  change t.counter k + (0 : Nat) < _
  omega

theorem Books.forward (h : Books w t) (ha : Adds w.daemon d is) (hd : d.Discreet)
    (hb : Bounded t is) (hp : ∀ i ∈ is, i.payload.store.length < capacity 8) {s : Stage}
    (sent : List Batch) (hflight : ∀ f, s.flight? = some f → w.stage.flight? = some f)
    (hunsettled : s.unsettled = w.stage.unsettled)
    (hsending : ∀ f left b, s = .sending f left b → b.tallies = f.batch.tallies) :
    Posted w { w with daemon := d, stage := s, sent := sent } t is := by
  have hbooks : Books { w with daemon := d, stage := s, sent := sent } (t.commit is) := by
    refine ⟨hd, ha.counted t h.table, ha.cached h.cached, h.sound.commit hb,
      Table.genuine_commit h.genuine hp, fun f hf => ?_, hsending⟩
    have hc := h.carried f (hflight f hf)
    exact ⟨ha.current _ hc.current, hc.holds.commit h.sound hb, hc.tallies⟩
  refine ⟨_, hbooks, fun k => ?_⟩
  have howed : ({ w with daemon := d, stage := s, sent := sent } : Site).owed k = w.owed k := by
    rw [owed, owed]
    dsimp only
    rw [hunsettled]
  rw [howed, h.sound.counter_commit (hb k)]
  exact ⟨Int.le_refl _, rfl⟩

theorem Books.adds (h : Books w t) (ha : Adds w.daemon d is) (hd : d.Discreet) (hb : Bounded t is)
    (hp : ∀ i ∈ is, i.payload.store.length < capacity 8) :
    Posted w { w with daemon := d } t is :=
  h.forward ha hd hb hp w.sent (fun _ hf => hf) rfl h.sending

theorem Books.passes (h : Books w t) (ha : Adds w.daemon d []) (hd : d.Discreet) {s : Stage}
    (sent : List Batch) (hflight : ∀ f, s.flight? = some f → w.stage.flight? = some f)
    (hunsettled : s.unsettled = w.stage.unsettled)
    (hsending : ∀ f left b, s = .sending f left b → b.tallies = f.batch.tallies) :
    Posted w { w with daemon := d, stage := s, sent := sent } t [] :=
  h.forward ha hd h.bounded (fun _ hi => nomatch hi) sent hflight hunsettled hsending

theorem Books.refl (h : Books w t) : Posted w w t [] :=
  h.passes (.refl _) h.discreet w.sent (fun _ hf => hf) rfl h.sending

theorem Books.landed (h : Books w t) (ha : Adds w.daemon d []) (hd : d.Discreet)
    (hw : w.stage.flight? = none) {s : Stage} (hs : s.flight? = none) :
    Posted w { w with daemon := d, stage := s } t [] := by
  refine h.passes ha hd w.sent (fun f hf => ?_) ?_ fun f left b hb => ?_
  · rw [hs] at hf
    cases hf
  · rw [Stage.unsettled_of_flight hs, Stage.unsettled_of_flight hw]
  · rw [hb] at hs
    cases hs

theorem carried_gather (h : Books w t) {generation : Nat} {limit : Option Nat} {f : InFlight}
    (hg : w.daemon.gather generation limit = (.ok f, d)) : Carried d t f := by
  rw [Daemon.gather] at hg
  split at hg
  · next hcur =>
    split at hg
    · cases hg
    · dsimp only at hg
      split at hg
      · cases hg
      · next rows hrows =>
        cases hg
        refine ⟨hcur, ?_, rfl⟩
        rw [closedRows] at hrows
        cases hdays : w.daemon.tally.rowsBefore .day w.daemon.clock.today with
        | error e =>
          rw [hdays] at hrows
          cases hrows
        | ok days =>
          cases hmonths : w.daemon.tally.rowsBefore .month w.daemon.clock.today with
          | error e =>
            rw [hdays, hmonths] at hrows
            cases hrows
          | ok months =>
            rw [hdays, hmonths] at hrows
            cases hrows
            rw [Store.rowsBefore, Store.query, h.table] at hdays hmonths
            exact Table.holds_closed h.sound h.genuine w.daemon.clock.today hdays hmonths
  · cases hg

theorem posted_check (h : Books w t) (trigger : Trigger) : Posted w (w.check trigger) t [] := by
  have ha := adds_beginUpload w.daemon
  have hd := h.discreet.beginUpload
  rw [check]
  split
  · next hs =>
    split
    · next hb =>
      rw [hb] at ha hd
      exact h.landed ha hd (by rw [hs]; rfl) rfl
    · next hb =>
      rw [hb] at ha hd
      exact h.adds ha hd h.bounded fun _ hi => by cases hi
  · exact h.refl

theorem posted_gather (h : Books w t) : Posted w w.gather t [] := by
  rw [gather]
  split
  · next generation trigger hs =>
    have hw : w.stage.flight? = none := by rw [hs]; rfl
    have ha := adds_gather w.daemon generation (w.daemon.uploadLimit trigger)
    have hd := h.discreet.gather generation (w.daemon.uploadLimit trigger)
    cases hg : w.daemon.gather generation (w.daemon.uploadLimit trigger) with
    | mk r d =>
      rw [hg] at ha hd
      cases r with
      | error e => exact h.landed ha hd hw rfl
      | ok f =>
        dsimp only
        split
        · exact h.landed ha hd hw rfl
        · have hbooks : Books { w with daemon := d, stage := .waiting f d.config.upload.maxAttempts }
              t := by
            refine ⟨hd, ha.counted t h.table, ha.cached h.cached, h.sound, h.genuine, ?_,
              fun _ _ _ hf => by cases hf⟩
            rintro f' ⟨⟩
            exact carried_gather h hg
          refine .of_books hbooks fun k => ⟨Int.le_refl _, ?_⟩
          have howed : w.owed k = 0 := by
            rw [owed, Stage.unsettled_of_flight hw]
            rfl
          rw [howed]
          rfl
  · exact h.refl

theorem posted_attempt (h : Books w t) : Posted w w.attempt t [] := by
  rw [attempt]
  split
  · next f hs =>
    exact h.passes (.refl _) h.discreet w.sent (fun _ hf => by rw [hs]; exact hf) (by rw [hs]; rfl)
      fun _ _ _ hf => by cases hf
  · next f left hs =>
    split
    · exact h.passes (.refl _) h.discreet w.sent (fun _ hf => by rw [hs]; exact hf) (by rw [hs]; rfl)
        fun _ _ _ hf => by cases hf
    · next b d hb =>
      have hd := h.discreet.effect (effect_beginAttempt hb)
      have hstill : Adds w.daemon d [] ∧ b.tallies = f.batch.tallies := by
        rw [beginAttempt] at hb
        split at hb
        · cases hb
          exact ⟨.of_still ⟨rfl, rfl, fun _ hc => hc⟩ rfl, rfl⟩
        · cases hb
      refine h.passes hstill.1 hd _ (fun _ hf => by rw [hs]; exact hf) (by rw [hs]; rfl)
        fun f' left' b' hf => ?_
      cases hf
      exact hstill.2
  · exact h.refl

theorem reported_of_tallies {b : Batch} {rows : List Row} (h : b.tallies = rows.map Report.ofRow)
    (k : Key) : b.reported k = Table.reported rows k := by
  rw [Batch.reported, h, sumOf_map]
  rfl

theorem posted_answer (h : Books w t) (accepted : Bool) : Posted w (w.answer accepted) t [] := by
  rw [answer]
  split
  · next f left b hs =>
    split
    · have hc := h.carried f (by rw [hs]; rfl)
      have hb := (h.sending f left b hs).trans hc.tallies
      have hbooks : Books { w with stage := .ended f true, accepted := w.accepted ++ [b] } t := by
        refine ⟨h.discreet, h.table, h.cached, h.sound, h.genuine, ?_, fun _ _ _ hf => by cases hf⟩
        rintro f' ⟨⟩
        exact hc
      refine .of_books hbooks fun k => ⟨Int.le_refl _, ?_⟩
      have howed : w.owed k = 0 := by
        rw [owed, hs]
        rfl
      have hreported : ({ w with stage := .ended f true, accepted := w.accepted ++ [b] } : Site).reported
          k = w.reported k + Table.reported f.rows k := by
        rw [reported, sumOf_append, sumOf_cons, sumOf_nil, reported_of_tallies hb]
        rfl
      rw [howed, hreported]
      change _ = _ + ((Table.reported f.rows k : Nat) : Int)
      omega
    · exact h.passes (.refl _) h.discreet w.sent (fun _ hf => by rw [hs]; exact hf) (by rw [hs]; rfl)
        fun _ _ _ hf => by cases hf
  · exact h.refl

theorem posted_completeDelivered (h : Books w t) {f : InFlight} (hs : w.stage = .ended f true) :
    Posted w { w with daemon := w.daemon.completeDelivered f, stage := .idle } t [] := by
  have hc := h.carried f (by rw [hs]; rfl)
  have hd := h.discreet.completeDelivered f
  obtain ⟨cache, hremove, hcached⟩ := Cache.exists_remove_of_present h.cached f.cachedIds
  obtain ⟨tally, t', hsettle, htable, hsound, hgenuine, hcounter⟩ :=
    Store.exists_settle h.table h.sound h.genuine hc.holds
  have hdone : w.daemon.completeDelivered f = { w.daemon with cache := cache, tally := tally } := by
    rw [completeDelivered]
    rw [if_pos hc.current, hremove]
    dsimp only
    rw [hsettle]
  have hbooks : Books { w with daemon := w.daemon.completeDelivered f, stage := .idle } t' := by
    refine ⟨hd, ?_, ?_, hsound, hgenuine, fun _ hf => (by cases hf), fun _ _ _ hf => (by cases hf)⟩
    · dsimp only
      rw [hdone]
      exact htable
    · dsimp only
      rw [hdone]
      exact hcached
  refine .of_books hbooks fun k => ?_
  have howed : w.owed k = Table.reported f.rows k := by
    rw [owed, hs]
    rfl
  rw [howed, hcounter k]
  change _ ∧ _ = _ + ((0 : Nat) : Int)
  change _ ∧ _ + ((w.reported k : Nat) : Int) + _ = _
  omega

theorem posted_complete (h : Books w t) : Posted w w.complete t [] := by
  rw [complete]
  split
  · next f hs => exact posted_completeDelivered h hs
  · next f hs =>
    exact h.passes (adds_completeFailed w.daemon f) (h.discreet.completeFailed f) w.sent
      (fun _ hf => by cases hf) (by rw [hs]; rfl) fun _ _ _ hf => by cases hf
  · exact h.refl

theorem posted_request (h : Books w t) {s : Session} {r : Request}
    (hu : w.Undisturbed (.move (.act (.request s r))))
    (hb : Bounded t (w.daemon.counts (.request s r))) :
    Posted w (w.request s r) t (w.daemon.counts (.request s r)) := by
  have hd := discreet_request h.discreet s r
  have hconsent := hu.consent
  change _ → (w.request s r).daemon.gate.enabled = true at hconsent
  rw [request] at hd hconsent ⊢
  split
  · next hr =>
    subst hr
    rw [counts_eq_nil rfl]
    exact posted_check h .requested
  · next hr =>
    rw [if_neg hr] at hd hconsent
    exact h.adds (adds_dispatch w.daemon .fresh s hr hconsent) hd hb hu.payloads

theorem posted_reboot (h : Books w t) (hu : w.Undisturbed (.move .reboot))
    (hb : Bounded t (w.daemon.counts .shutdown)) :
    Posted w (w.move .reboot) t (w.daemon.counts .shutdown) := by
  obtain ⟨t', hbooks, hk⟩ := h.adds (adds_shutdown w.daemon) h.discreet.shutdown hb hu.payloads
  have hlanded := hu.landed rfl
  have hconsent := hu.consent
  change _ → ({ w with daemon := w.daemon.shutdown } : Site).restart.daemon.gate.enabled = true
    at hconsent
  change Posted w ({ w with daemon := w.daemon.shutdown } : Site).restart t _
  rw [restart] at hconsent ⊢
  split
  · next d hr =>
    rw [hr] at hconsent
    obtain ⟨hcached, htable⟩ := tables_of_restart hbooks.discreet hbooks.table hr fun hon =>
      hconsent ((enabled_shutdown w.daemon).symm.trans hon)
    refine ⟨t', ⟨hbooks.discreet.restart hr, htable, hcached, hbooks.sound, hbooks.genuine,
      fun _ hf => (by cases hf), fun _ _ _ hf => (by cases hf)⟩, fun k => ?_⟩
    have howed : ({ w with daemon := w.daemon.shutdown } : Site).owed k = 0 := by
      rw [owed, Stage.unsettled_of_flight hlanded]
      rfl
    obtain ⟨hle, heq⟩ := hk k
    rw [howed] at heq
    exact ⟨hle, heq⟩
  · exact ⟨t', hbooks, hk⟩

theorem posted_move (h : Books w t) {m : Move} (hu : w.Undisturbed (.move m))
    (hb : Bounded t (w.counts (.move m))) : Posted w (w.move m) t (w.counts (.move m)) := by
  have ho := hu.orderly
  cases m with
  | reboot => exact posted_reboot h hu hb
  | act a =>
    have hd := discreet_step w a h.discreet
    have hadds (d : Daemon) (ha : Adds w.daemon d (w.daemon.counts a)) (hd : d.Discreet) :
        Posted w { w with daemon := d } t (w.daemon.counts a) := h.adds ha hd hb hu.payloads
    have hquiet (d : Daemon) (hs : Still w.daemon d) (ht : d.tally = w.daemon.tally)
        (hd : d.Discreet) : Posted w { w with daemon := d } t [] :=
      h.adds (.of_still hs ht) hd h.bounded fun _ hi => nomatch hi
    cases a with
    | request s r => exact posted_request h hu hb
    | disconnect client => exact hadds _ (adds_disconnect _ client) hd
    | rollover => exact hadds _ (adds_checkRollover _) hd
    | shutdown => exact hadds _ (adds_shutdown _) hd
    | restart | loseTally | loseCache | abandon => cases ho
    | advance | setToday =>
      rw [counts, counts_eq_nil rfl]
      exact hquiet _ ⟨rfl, rfl, fun _ hc => hc⟩ rfl hd
    | flush =>
      rw [counts, counts_eq_nil rfl]
      exact h.adds (adds_flush _) hd h.bounded fun _ hi => nomatch hi
    | check trigger =>
      rw [counts, counts_eq_nil rfl]
      exact posted_check h trigger
    | gather =>
      rw [counts, counts_eq_nil rfl]
      exact posted_gather h
    | attempt =>
      rw [counts, counts_eq_nil rfl]
      exact posted_attempt h
    | answer accepted =>
      rw [counts, counts_eq_nil rfl]
      exact posted_answer h accepted
    | complete =>
      rw [counts, counts_eq_nil rfl]
      exact posted_complete h

theorem posted_post (h : Books w t) {e : Posting} (hu : w.Undisturbed e)
    (hb : Bounded t (w.counts e)) : Posted w (w.post e) t (w.counts e) := by
  cases e with
  | move m => exact posted_move h hu hb
  | commit is =>
    have hp := hu.payloads
    rw [counts] at hb hp ⊢
    rw [post, whileEnabled]
    split
    · next hon =>
      rw [if_pos hon] at hb hp
      have ha := adds_commit w.daemon is
      have hcur := ha.current w.daemon.gate.generation (by simp [Consent.Gate.current, hon])
      have hd : (w.daemon.settled (w.daemon.commit is)).2.Discreet := by
        refine h.discreet.of_enabled ?_ (enabled_of_current hcur).1
        rw [commit_eq h.table]
        rfl
      exact h.adds ha hd hb hp
    · exact h.refl

def posts (w : Site) (es : List Posting) : Site := es.foldl post w

/-- Every posting of a history is undisturbed where it is made. -/
def AllUndisturbed : Site → List Posting → Prop
  | _, [] => True
  | w, e :: es => w.Undisturbed e ∧ AllUndisturbed (w.post e) es

instance decidableAllUndisturbed : (w : Site) → (es : List Posting) → Decidable (AllUndisturbed w es)
  | _, [] => .isTrue trivial
  | w, e :: es =>
    have := decidableAllUndisturbed (w.post e) es
    inferInstanceAs (Decidable (w.Undisturbed e ∧ AllUndisturbed (w.post e) es))

/-- All that is counted in a history. -/
def committed : Site → List Posting → List Increment
  | _, [] => []
  | w, e :: es => w.counts e ++ committed (w.post e) es

theorem posted_posts (h : Books w t) {es : List Posting} (hu : AllUndisturbed w es)
    (hb : Bounded t (committed w es)) : Posted w (w.posts es) t (committed w es) := by
  induction es generalizing w t with
  | nil => exact h.refl
  | cons e es ih =>
    rw [committed] at hb ⊢
    have hsum (k : Key) : Table.counted (w.counts e ++ committed (w.post e) es) k =
        Table.counted (w.counts e) k + Table.counted (committed (w.post e) es) k :=
      Table.counted_append _ _ k
    have hfirst : Bounded t (w.counts e) := by
      intro k
      have hk := hb k
      rw [hsum k] at hk
      omega
    obtain ⟨t', hbooks, hpost⟩ := posted_post h hu.1 hfirst
    have hrest : Bounded t' (committed (w.post e) es) := by
      intro k
      have hk := hb k
      have hle := (hpost k).1
      rw [hsum k] at hk
      omega
    obtain ⟨t'', hbooks', hposts⟩ := ih hbooks hu.2 hrest
    refine ⟨t'', hbooks', fun k => ?_⟩
    obtain ⟨hle, heq⟩ := hpost k
    obtain ⟨hle', heq'⟩ := hposts k
    change _ ∧ t''.counter k + (((w.post e).posts es).reported k : Int) + _ =
      _ + (((w.post e).posts es).owed k : Int)
    rw [hsum k]
    omega

/-- What stood under a key at the start and all that was counted under it since is what stands there
and what accepted batches reported of it. Only between the answer of the collector and the
settlement of the upload, what it accepted stands in both. -/
theorem counters_balanced {config : Daemon.Config} {disk : Disk} {clock : Clock} {d : Daemon}
    (ha : assemble config disk clock = .ok d) (hd : config.discards = true)
    (hdisk : ∀ t, disk.tally = some t → t.Sound ∧ ∀ s ∈ t, s.key.Genuine) (es : List Posting)
    (hu : AllUndisturbed (opened d) es) (hb : Bounded d.tally.rows (committed (opened d) es)) :
    ((opened d).posts es).daemon.tally.table.isSome ∧ ∀ k : Key,
      ((opened d).posts es).daemon.tally.rows.counter k + ((opened d).posts es).reported k =
          d.tally.rows.counter k + Table.counted (committed (opened d) es) k +
            ((opened d).posts es).owed k ∧
        (((opened d).posts es).stage.unsettled = [] →
          ((opened d).posts es).daemon.tally.rows.counter k + ((opened d).posts es).reported k =
            d.tally.rows.counter k + Table.counted (committed (opened d) es) k) := by
  obtain ⟨hcached, htables⟩ := tables_of_assemble ha
  obtain ⟨t, ht, hsound, hgenuine⟩ :
      ∃ t, d.tally.table = some t ∧ t.Sound ∧ ∀ s ∈ t, s.key.Genuine := by
    have hempty : Table.Sound [] ∧ ∀ s ∈ ([] : Table), s.key.Genuine :=
      ⟨Table.sound_nil, fun _ h => nomatch h⟩
    rcases htables with ht | ⟨-, ht⟩
    · refine ⟨_, ht, ?_⟩
      cases hc : disk.tally with
      | none => exact hempty
      | some t => exact hdisk t hc
    · exact ⟨[], ht, hempty⟩
  have hbooks : Books (opened d) t := ⟨Discreet.of_assemble ha hd, ht, hcached, hsound, hgenuine,
    fun _ hf => (nomatch hf), fun _ _ _ hf => (nomatch hf)⟩
  have hrows : d.tally.rows = t := by
    rw [Store.rows, ht, Option.getD_some]
  rw [hrows] at hb ⊢
  obtain ⟨t', hbooks', hposts⟩ := posted_posts hbooks hu hb
  have hrows' : ((opened d).posts es).daemon.tally.rows = t' := by
    rw [Store.rows, hbooks'.table, Option.getD_some]
  rw [hrows']
  refine ⟨by rw [hbooks'.table]; rfl, fun k => ?_⟩
  have hstart : (opened d).reported k = 0 ∧ (opened d).owed k = 0 := ⟨rfl, rfl⟩
  have heq := (hposts k).2
  rw [hstart.1, hstart.2] at heq
  refine ⟨by omega, fun hsettled => ?_⟩
  have howed : ((opened d).posts es).owed k = 0 := by
    rw [owed, hsettled]
    rfl
  omega

def juneTime : Increment := ⟨sevens, ⟨2024, 6, 30, by decide⟩, 1000, none, 4294967295⟩

def overflowing : List Posting :=
  [.move (.act (.request (.fresh ⟨0⟩ 0) (.setEnabled true))),
   .move (.act (.request (.fresh ⟨0⟩ 0) (.setUploading true))), .commit [juneTime, juneTime],
   .move (.act (.check .scheduled)), .move (.act .gather), .commit [{ juneTime with amount := 5 }],
   .move (.act .attempt), .move (.act (.answer false)), .move (.act .attempt),
   .move (.act (.answer true)), .move (.act .complete)]

theorem counters_balanced_overflowing :
    ∃ d, assemble .standard .empty (.start ⟨2024, 7, 1, by decide⟩) = .ok d ∧
      Daemon.Config.standard.discards = true ∧
      (∀ t, Disk.empty.tally = some t → t.Sound ∧ ∀ s ∈ t, s.key.Genuine) ∧
      AllUndisturbed (opened d) overflowing ∧
      Bounded d.tally.rows (committed (opened d) overflowing) ∧
      Table.counted (committed (opened d) overflowing) juneTime.dayKeyOf = 8589934595 ∧
      ((opened d).posts overflowing).reported juneTime.dayKeyOf = 4294967295 ∧
      ((opened d).posts overflowing).daemon.tally.rows.counter juneTime.dayKeyOf = 4294967300 := by
  have ha : assemble .standard .empty (.start ⟨2024, 7, 1, by decide⟩) = .ok _ := rfl
  have hd : Daemon.Config.standard.discards = true := rfl
  have hdisk : ∀ t, Disk.empty.tally = some t → t.Sound ∧ ∀ s ∈ t, s.key.Genuine :=
    fun _ h => nomatch h
  refine ⟨_, ha, hd, hdisk, by decide +kernel, bounded_of_sum (by decide +kernel),
    by decide +kernel, by decide +kernel, ?_⟩
  have hledger := counters_balanced ha hd hdisk overflowing (by decide +kernel)
    (bounded_of_sum (by decide +kernel))
  have hbalance := (hledger.2 juneTime.dayKeyOf).2 (by decide +kernel)
  exact (Int.add_left_inj _).1 (hbalance.trans (by decide +kernel))

end Site

end Telemetry

import Telemetry.Proofs.Daemon.Crew

namespace Telemetry

open Calendar Codec Consent Daemon Tally Timer

namespace Crew

variable {c c' : Crew} {thread : Nat}

def Open (c : Crew) : Prop := ∃ t, c.phase t = .turned false

def Placed (c : Crew) : Phase → Prop
  | .noted _ _ generation number =>
    generation ≤ c.daemon.gate.generation ∧
      (generation = c.daemon.gate.generation → c.revoked < number)
  | .released r =>
    r.generation ≤ c.daemon.gate.generation ∧ r.released < c.now ∧
      (r.generation = c.daemon.gate.generation →
        c.revoked < r.started ∨ c.revoked < r.noted ∧ (c.Open ∨ r.released < c.purged))
  | _ => True

/-- What the steps keep. Only while a revocation is open do timers of before it still run. -/
structure Ordered (c : Crew) : Prop where
  discards : c.daemon.config.discards = true
  begun : c.revoked < c.now
  alone : ∀ t, (c.phase t).writes = true → c.writer = some t
  fresh : ¬c.Open → ∀ k ∈ c.daemon.timers.timers.keys, c.revoked < c.started k
  placed : ∀ t, c.Placed (c.phase t)

variable {p : Phase}

theorem Ordered.not_open (h : c.Ordered) (hw : c.writer = none) : ¬c.Open := by
  rintro ⟨t, ht⟩
  have ha := h.alone t (by rw [ht]; rfl)
  rw [hw] at ha
  cases ha

theorem Placed.mono (h : c.Placed p) (hg : c'.daemon.gate.generation = c.daemon.gate.generation)
    (hr : c'.revoked = c.revoked) (hn : c.now ≤ c'.now)
    (hp : c'.purged = c.purged ∧ (c.Open → c'.Open) ∨ c.now ≤ c'.purged) : c'.Placed p := by
  cases p with
  | noted s handle generation number =>
    rw [Placed, hg, hr]
    exact h
  | released r =>
    obtain ⟨hle, hlt, hcase⟩ := h
    rw [Placed, hg, hr]
    refine ⟨hle, Nat.lt_of_lt_of_le hlt hn, fun he => (hcase he).imp_right fun hnoted => ?_⟩
    rcases hp with ⟨hp, ho⟩ | hp
    · rw [hp]
      exact ⟨hnoted.1, hnoted.2.imp_left ho⟩
    · exact ⟨hnoted.1, .inr (Nat.lt_of_lt_of_le hlt hp)⟩
  | _ => trivial

theorem Placed.revoke (h : c.Placed p)
    (hg : c'.daemon.gate.generation = c.daemon.gate.generation + 1) (hn : c.now ≤ c'.now) :
    c'.Placed p := by
  cases p with
  | noted s handle generation number =>
    have hle : generation ≤ c.daemon.gate.generation := h.1
    rw [Placed, hg]
    exact ⟨by omega, fun he => by omega⟩
  | released r =>
    obtain ⟨hle, hlt, -⟩ := h
    rw [Placed, hg]
    exact ⟨by omega, by omega, fun he => by omega⟩
  | _ => trivial

theorem Ordered.proceed (h : c.Ordered) {d : Daemon} {started : Timer.Key → Nat}
    (hg : d.gate.generation = c.daemon.gate.generation) (hc : d.config = c.daemon.config)
    (hk : ∀ k ∈ d.timers.timers.keys,
      k ∈ c.daemon.timers.timers.keys ∧ started k = c.started k ∨ started k = c.now) :
    ({ c with daemon := d, now := c.now + 1, started := started } : Crew).Ordered where
  discards := by
    change d.config.discards = true
    rw [hc]
    exact h.discards
  begun := Nat.lt_succ_of_lt h.begun
  alone := h.alone
  fresh := by
    intro ho k hk'
    change c.revoked < started k
    rcases hk k hk' with ⟨hold, he⟩ | he
    · rw [he]
      exact h.fresh ho k hold
    · rw [he]
      exact h.begun
  placed := fun t => (h.placed t).mono hg rfl (Nat.le_succ _) (.inl ⟨rfl, id⟩)

theorem Ordered.goTo (h : c.Ordered) (hw : (c.phase thread).writes = false)
    (hw' : p.writes = false) (hp : c.Placed p) : (c.goTo thread p).Ordered := by
  have hwrites (t : Nat) (hwt : ((c.goTo thread p).phase t).writes = true) :
      t ≠ thread ∧ (c.goTo thread p).phase t = c.phase t := by
    have ht : t ≠ thread := by
      rintro rfl
      rw [phase_goTo_self, hw'] at hwt
      cases hwt
    exact ⟨ht, if_neg ht⟩
  have hopen : (c.goTo thread p).Open ↔ c.Open := by
    constructor
    · rintro ⟨t, ht⟩
      obtain ⟨-, he⟩ := hwrites t (by rw [ht]; rfl)
      exact ⟨t, he.symm.trans ht⟩
    · rintro ⟨t, ht⟩
      have hne : t ≠ thread := by
        rintro rfl
        rw [ht] at hw
        cases hw
      exact ⟨t, (if_neg hne).trans ht⟩
  refine ⟨h.discards, h.begun, ?_, ?_, ?_⟩
  · intro t ht
    have he := (hwrites t ht).2
    rw [he] at ht
    exact h.alone t ht
  · rw [hopen]
    exact h.fresh
  · intro t
    have hplaced : c.Placed ((c.goTo thread p).phase t) := by
      rw [Crew.goTo]
      dsimp only
      split
      · exact hp
      · exact h.placed t
    exact hplaced.mono rfl rfl (Nat.le_refl _) (.inl ⟨rfl, hopen.2⟩)

section Switch

variable (h : c.Ordered) (hw : c.writer = none ∨ c.writer = some thread)
  (hphase : ∀ t, c'.phase t = if t = thread then p else c.phase t)

include h hw in
theorem Ordered.writes_of_ne {t : Nat} (ht : t ≠ thread) : (c.phase t).writes = false := by
  rw [Bool.eq_false_iff]
  intro hwt
  have ha := h.alone t hwt
  rcases hw with hw | hw
  · rw [hw] at ha
    cases ha
  · rw [hw] at ha
    cases ha
    exact ht rfl

include h hw hphase

theorem Ordered.open_iff : c'.Open ↔ p = .turned false := by
  constructor
  · rintro ⟨t, ht⟩
    rw [hphase] at ht
    split at ht
    · exact ht
    · next hne =>
      have hf := h.writes_of_ne hw hne
      rw [ht] at hf
      cases hf
  · rintro rfl
    exact ⟨thread, by rw [hphase, if_pos rfl]⟩

omit hphase in
theorem Ordered.not_open_of_phase (hp : c.phase thread ≠ .turned false) : ¬c.Open := by
  have hsame (t : Nat) : c.phase t = if t = thread then c.phase thread else c.phase t := by
    split
    · next he => rw [he]
    · rfl
  rw [h.open_iff hw hsame]
  exact hp

theorem Ordered.switch (hc : c'.daemon.config = c.daemon.config) (hb : c'.revoked < c'.now)
    (hwriter : p.writes = true → c'.writer = some thread)
    (hf : p ≠ .turned false → ∀ k ∈ c'.daemon.timers.timers.keys, c'.revoked < c'.started k)
    (hp : c'.Placed p) (hps : ∀ q, c.Placed q → c'.Placed q) : c'.Ordered where
  discards := by
    rw [hc]
    exact h.discards
  begun := hb
  alone := by
    intro t ht
    rw [hphase] at ht
    split at ht
    · next he =>
      subst he
      exact hwriter ht
    · next hne =>
      rw [h.writes_of_ne hw hne] at ht
      cases ht
  fresh := by
    rw [h.open_iff hw hphase]
    exact hf
  placed := by
    intro t
    rw [hphase]
    split
    · exact hp
    · exact hps _ (h.placed t)

end Switch

theorem Ordered.wait (h : c.Ordered) : ({ c with now := c.now + 1 } : Crew).Ordered :=
  h.proceed rfl rfl fun _ hk => .inl ⟨hk, rfl⟩

theorem Ordered.start (h : c.Ordered) (s : Session) (flags : Flags) (event : Bytes)
    (payload : Payload) :
    ({ c.start s flags event payload with now := c.now + 1 } : Crew).Ordered := by
  rw [Crew.start]
  split
  · exact h.wait
  · split
    · exact h.wait
    · next hs =>
      obtain ⟨-, start, rfl⟩ := timers_of_startTimer hs
      refine h.proceed rfl rfl fun k _ => ?_
      by_cases hk : k ∈ c.daemon.timers.timers.keys
      · exact .inl ⟨hk, if_pos hk⟩
      · exact .inr (if_neg hk)

theorem Ordered.sweep (h : c.Ordered) (w : Sweep) :
    ({ c.sweep w with now := c.now + 1 } : Crew).Ordered := by
  rw [Crew.sweep]
  split
  · exact h.wait
  · have hs := swept_sweep c.daemon w
    exact h.proceed (by rw [hs.gate]) hs.config fun k hk => .inl ⟨hs.keys hk, rfl⟩

theorem Ordered.note (h : c.Ordered) (thread : Nat) (s : Session) (handle : TimerHandle) :
    ({ c.note thread s handle with now := c.now + 1 } : Crew).Ordered := by
  rw [Crew.note]
  split
  · next hi => exact h.wait.goTo (by rw [hi]; rfl) rfl ⟨Nat.le_refl _, fun _ => h.begun⟩
  · exact h.wait

theorem Ordered.release (h : c.Ordered) (thread : Nat) :
    ({ c.release thread with now := c.now + 1 } : Crew).Ordered := by
  rw [Crew.release]
  split
  · next s handle generation number hn =>
    have hw : (c.phase thread).writes = false := by
      rw [hn]
      rfl
    have hplaced := h.placed thread
    rw [hn] at hplaced
    cases hr : c.daemon.release s.client handle with
    | error e => exact h.wait.goTo hw rfl trivial
    | ok result =>
      obtain ⟨i, d⟩ := result
      rw [Daemon.release] at hr
      split at hr
      · cases hr
      · next timers hstop =>
        cases hr
        obtain ⟨⟨k, hk, hh⟩, hsub⟩ := Registry.running_of_stop hstop
        have hleft : ({ c with
            daemon := { c.daemon with timers := timers }, now := c.now + 1 } : Crew).Ordered :=
          h.proceed rfl rfl fun j hj => .inl ⟨hsub hj, rfl⟩
        cases i with
        | none => exact hleft.goTo hw rfl trivial
        | some i =>
          have hstart : c.startOf handle = c.started k := by
            rw [startOf, hh]
            rfl
          refine hleft.goTo hw rfl ⟨hplaced.1, Nat.lt_succ_self _, fun he => ?_⟩
          -- a timer of before the revocation can only have been there while it was open
          by_cases ho : c.Open
          · exact .inr ⟨hplaced.2 he, .inl ho⟩
          · left
            dsimp only
            rw [hstart]
            exact h.fresh ho k hk
  · exact h.wait

theorem Ordered.count (h : c.Ordered) (thread : Nat) :
    ({ c.count thread with now := c.now + 1 } : Crew).Ordered := by
  rw [Crew.count]
  split
  · next r hr =>
    split
    · exact h.wait
    · have hw : (c.phase thread).writes = false := by
        rw [hr]
        rfl
      rcases settled_commitSince c.daemon r.generation r.increment with he | ⟨-, tally, -, he⟩
      · rw [he]
        exact h.wait.goTo hw rfl trivial
      · rw [he]
        have hcounted : ({ c with
            daemon := { c.daemon with tally := tally }, now := c.now + 1 } : Crew).Ordered :=
          h.proceed rfl rfl fun k hk => .inl ⟨hk, rfl⟩
        exact hcounted.goTo hw rfl trivial
  · exact h.wait

theorem Ordered.turn (h : c.Ordered) (thread : Nat) (user : UInt32) (enabled : Bool) :
    ({ c.turn thread user enabled with now := c.now + 1 } : Crew).Ordered := by
  rw [Crew.turn]
  split
  · split
    · next hif =>
      have hw := hif.1
      cases enabled with
      | true =>
        refine h.switch (.inl hw) (fun _ => rfl) rfl (Nat.lt_succ_of_lt h.begun) (fun _ => rfl)
          (fun _ => h.fresh (h.not_open hw)) trivial fun q hq => ?_
        exact hq.mono rfl rfl (Nat.le_succ _) (.inl ⟨rfl, fun ho => absurd ho (h.not_open hw)⟩)
      | false =>
        refine h.switch (.inl hw) (fun _ => rfl) rfl (Nat.lt_succ_self _) (fun _ => rfl)
          (fun hne => absurd rfl hne) trivial fun q hq => ?_
        exact hq.revoke rfl (Nat.le_succ _)
    · exact h.wait
  · exact h.wait

theorem Ordered.purge (h : c.Ordered) (thread : Nat) :
    ({ c.purge thread with now := c.now + 1 } : Crew).Ordered := by
  rw [Crew.purge]
  split
  · next enabled ht =>
    have hw : c.writer = some thread := h.alone thread (by rw [ht]; rfl)
    have hd := h.discards
    cases enabled with
    | true =>
      have ho : ¬c.Open := h.not_open_of_phase (.inr hw) (by simp [ht])
      simp only [Bool.not_true, Bool.and_false, Bool.false_eq_true, if_false, if_true]
      refine h.switch (.inr hw) (fun _ => rfl) rfl (Nat.lt_succ_of_lt h.begun) (fun _ => hw)
        (fun _ => h.fresh ho) trivial fun q hq => ?_
      exact hq.mono rfl rfl (Nat.le_succ _) (.inl ⟨rfl, fun ho' => absurd ho' ho⟩)
    | false =>
      simp only [hd, Bool.not_false, Bool.and_true, if_true, Bool.false_eq_true, if_false]
      refine h.switch (.inr hw) (fun _ => rfl) rfl (Nat.lt_succ_of_lt h.begun) (fun _ => hw)
        (fun _ k hk => by cases hk) trivial fun q hq => ?_
      exact hq.mono rfl rfl (Nat.le_succ _) (.inr (Nat.le_refl _))
  · exact h.wait

theorem Ordered.unlock (h : c.Ordered) (thread : Nat) :
    ({ c.unlock thread with now := c.now + 1 } : Crew).Ordered := by
  rw [Crew.unlock]
  split
  · next ht =>
    have hw : c.writer = some thread := h.alone thread (by rw [ht]; rfl)
    have ho : ¬c.Open := h.not_open_of_phase (.inr hw) (by simp [ht])
    refine h.switch (.inr hw) (fun _ => rfl) rfl (Nat.lt_succ_of_lt h.begun) (fun hi => by cases hi)
      (fun _ => h.fresh ho) trivial fun q hq => ?_
    exact hq.mono rfl rfl (Nat.le_succ _) (.inl ⟨rfl, fun ho' => absurd ho' ho⟩)
  · exact h.wait

theorem Ordered.step (h : c.Ordered) (thread : Nat) (a : Deed) : (c.step thread a).Ordered := by
  cases a with
  | start s flags event payload => exact h.start s flags event payload
  | sweep w => exact h.sweep w
  | advance nanoseconds => exact h.proceed rfl rfl fun _ hk => .inl ⟨hk, rfl⟩
  | setToday date => exact h.proceed rfl rfl fun _ hk => .inl ⟨hk, rfl⟩
  | note s handle => exact h.note thread s handle
  | release => exact h.release thread
  | count => exact h.count thread
  | turn user enabled => exact h.turn thread user enabled
  | purge => exact h.purge thread
  | unlock => exact h.unlock thread

theorem Ordered.run (h : c.Ordered) (steps : List (Nat × Deed)) : (c.run steps).Ordered := by
  induction steps generalizing c with
  | nil => exact h
  | cons e steps ih => exact ih (h.step e.1 e.2)

theorem ordered_opened {config : Config} {disk : Disk} {clock : Clock} {d : Daemon}
    (hd : config.discards = true) (ha : assemble config disk clock = .ok d) : (opened d).Ordered := by
  have hd' : d.config.discards = true ∧ d.timers = .empty := by
    rw [assemble] at ha
    split at ha
    · cases ha
    · dsimp only at ha
      cases ha
      split <;> exact ⟨hd, rfl⟩
  refine ⟨hd'.1, Nat.zero_lt_one, (fun t ht => nomatch ht), fun _ k hk => ?_, fun _ => trivial⟩
  change k ∈ d.timers.timers.keys at hk
  rw [hd'.2] at hk
  cases hk

/-- The time that a thread may count: that of timers started after the latest revocation, and that
of a stop that passed while the revocation was open. -/
inductive Due (c : Crew) (thread : Nat) : Increment → Prop
  | running {k : Timer.Key} {t : Running} (h : (k, t) ∈ c.daemon.timers.timers.entries)
      (hs : c.revoked < c.started k) (day : Date) :
    Due c thread (t.increment k c.daemon.clock.boot day)
  | stopped {r : Stopped} (h : c.phase thread = .released r) (hs : c.revoked < r.started) :
    Due c thread r.increment
  | late {r : Stopped} (h : c.phase thread = .released r) (hn : c.revoked < r.noted)
      (hp : r.released < c.purged) :
    Due c thread r.increment

/-- With the lock free of a change of consent, the counters gain time that is due. -/
def Counts (c c' : Crew) (thread : Nat) : Prop :=
  c.writer = none ∧ ∃ is, c.daemon.tally.commit is = .ok c'.daemon.tally ∧ ∀ i ∈ is, c.Due thread i

theorem tally_start (c : Crew) (s : Session) (flags : Flags) (event : Bytes) (payload : Payload) :
    (c.start s flags event payload).daemon.tally = c.daemon.tally := by
  rw [start]
  split
  · rfl
  · split
    · rfl
    · next hs =>
      obtain ⟨-, start, rfl⟩ := timers_of_startTimer hs
      rfl

theorem tally_note (c : Crew) (thread : Nat) (s : Session) (handle : TimerHandle) :
    (c.note thread s handle).daemon.tally = c.daemon.tally := by
  rw [note]
  split <;> rfl

theorem tally_release (c : Crew) (thread : Nat) :
    (c.release thread).daemon.tally = c.daemon.tally := by
  rw [release]
  split
  · split
    · rfl
    · next hr =>
      obtain ⟨-, timers, rfl⟩ := release_ok hr
      rfl
    · next hr =>
      obtain ⟨-, timers, rfl⟩ := release_ok hr
      rfl
  · rfl

theorem tally_turn (c : Crew) (thread : Nat) (user : UInt32) (enabled : Bool) :
    (c.turn thread user enabled).daemon.tally = c.daemon.tally := by
  rw [turn]
  split
  · split <;> rfl
  · rfl

theorem tally_unlock (c : Crew) (thread : Nat) :
    (c.unlock thread).daemon.tally = c.daemon.tally := by
  rw [unlock]
  split <;> rfl

theorem turned_of_purge (h : (c.purge thread).daemon.tally ≠ c.daemon.tally) :
    c.phase thread = .turned false := by
  rw [purge] at h
  split at h
  · next enabled ht =>
    cases enabled with
    | true => exact absurd (by simp [Crew.goTo]) h
    | false => exact ht
  · exact absurd rfl h

theorem Ordered.counts_sweep (h : c.Ordered) {w : Sweep}
    (ht : (c.sweep w).daemon.tally ≠ c.daemon.tally) (thread : Nat) :
    c.Counts (c.sweep w) thread := by
  rw [Crew.sweep] at ht ⊢
  split at ht
  · exact absurd rfl ht
  · next hw =>
    rw [if_neg hw]
    have hw' : c.writer = none := by simpa using hw
    obtain ⟨is, hc, hi⟩ := (swept_sweep c.daemon w).counted ht
    refine ⟨hw', is, hc, fun i hm => ?_⟩
    obtain ⟨⟨k, t⟩, he, day, rfl⟩ := hi i hm
    have hk : k ∈ c.daemon.timers.timers.keys := List.mem_map_of_mem he
    exact .running he (h.fresh (h.not_open hw') k hk) day

theorem Ordered.counts_count (h : c.Ordered)
    (ht : (c.count thread).daemon.tally ≠ c.daemon.tally) : c.Counts (c.count thread) thread := by
  rw [Crew.count] at ht ⊢
  cases hp : c.phase thread with
  | released r =>
    simp only [hp] at ht ⊢
    split at ht
    · exact absurd rfl ht
    · next hw =>
      rw [if_neg hw]
      have hw' : c.writer = none := by simpa using hw
      have hplaced := h.placed thread
      rw [hp] at hplaced
      rcases settled_commitSince c.daemon r.generation r.increment with he | ⟨hg, tally, hc, he⟩
      · rw [he] at ht
        exact absurd rfl ht
      · rw [he]
        refine ⟨hw', [r.increment], hc, fun i hm => ?_⟩
        cases List.mem_singleton.1 hm
        rcases hplaced.2.2 hg with hs | ⟨hn, ho | hp'⟩
        · exact .stopped hp hs
        · exact absurd ho (h.not_open hw')
        · exact .late hp hn hp'
  | _ =>
    simp only [hp] at ht
    exact absurd rfl ht

theorem Ordered.counts_step (h : c.Ordered) {a : Deed}
    (ht : (c.step thread a).daemon.tally ≠ c.daemon.tally) :
    a = .purge ∧ c.phase thread = .turned false ∨ c.Counts (c.step thread a) thread := by
  cases a with
  | start s flags event payload => exact absurd (c.tally_start s flags event payload) ht
  | sweep w => exact .inr (h.counts_sweep ht thread)
  | advance nanoseconds => exact absurd rfl ht
  | setToday date => exact absurd rfl ht
  | note s handle => exact absurd (c.tally_note thread s handle) ht
  | release => exact absurd (c.tally_release thread) ht
  | count => exact .inr (h.counts_count ht)
  | turn user enabled => exact absurd (c.tally_turn thread user enabled) ht
  | purge => exact .inl ⟨rfl, turned_of_purge ht⟩
  | unlock => exact absurd (c.tally_unlock thread) ht

/-- Whatever the threads do and however their steps interleave, the counters change only where a
revocation discards them, or by time that is due: of timers started after the latest revocation, or
of a stop that passed between the flags and the discarding of that revocation. -/
theorem counts_of_tally_ne {config : Config} {disk : Disk} {clock : Clock} {d : Daemon}
    (hd : config.discards = true) (ha : assemble config disk clock = .ok d)
    (steps : List (Nat × Deed)) (thread : Nat) (a : Deed)
    (ht : (((opened d).run steps).step thread a).daemon.tally ≠ ((opened d).run steps).daemon.tally) :
    a = .purge ∧ ((opened d).run steps).phase thread = .turned false ∨
      ((opened d).run steps).Counts (((opened d).run steps).step thread a) thread :=
  ((ordered_opened hd ha).run steps).counts_step ht

def timedByUser : List (Nat × Deed) :=
  [(1, .start (.fresh ⟨1⟩ 1000) ⟨0⟩ (List.replicate 16 7) none), (0, .advance 5000000000)]

def turnedBy (thread : Nat) (enabled : Bool) : List (Nat × Deed) :=
  [(thread, .turn 0 enabled), (thread, .purge), (thread, .unlock)]

def stopAfterRegrant : List (Nat × Deed) :=
  turnedBy 0 true ++ turnedBy 0 false ++ turnedBy 0 true ++ timedByUser ++
    [(1, .note (.fresh ⟨1⟩ 1000) ⟨1⟩), (1, .release)]

def stopWhileOpen : List (Nat × Deed) :=
  turnedBy 0 true ++ timedByUser ++
    [(0, .turn 0 false), (1, .note (.fresh ⟨1⟩ 1000) ⟨1⟩), (1, .release), (0, .purge), (0, .unlock)] ++
    turnedBy 0 true

theorem counts_of_tally_ne_afterRegrant :
    ∃ d, assemble .standard .empty (.start .epoch) = .ok d ∧
      (((opened d).run stopAfterRegrant).step 1 .count).daemon.tally ≠
        ((opened d).run stopAfterRegrant).daemon.tally ∧
      ((opened d).run stopAfterRegrant).Counts
        (((opened d).run stopAfterRegrant).step 1 .count) 1 := by
  have ha : assemble .standard .empty (.start .epoch) = .ok _ := rfl
  refine ⟨_, ha, by decide +kernel, ?_⟩
  have hcounts := counts_of_tally_ne rfl ha stopAfterRegrant 1 .count (by decide +kernel)
  exact hcounts.resolve_left fun hpurge => nomatch hpurge.1

/-- Five seconds from before a revocation are counted after it. -/
theorem counted_across_revocation :
    ∃ d r, assemble .standard .empty (.start .epoch) = .ok d ∧
      ((opened d).run stopWhileOpen).phase 1 = .released r ∧
      r.started < ((opened d).run stopWhileOpen).revoked ∧
      r.increment.amount = 5 ∧
      ((opened d).run stopWhileOpen).daemon.tally.table = some [] ∧
      (((opened d).run stopWhileOpen).step 1 .count).daemon.tally.table =
        some (Table.commit [] [r.increment]) := by
  refine ⟨_, ⟨⟨⟨List.replicate 16 7, rfl⟩, .epoch, 1000, none, 5⟩, 1, 4, 7, 8⟩, rfl, ?_⟩
  decide +kernel

end Crew

end Telemetry

import Telemetry.Proofs.Daemon.Faults
import Telemetry.Proofs.Daemon.Gathering
import Telemetry.Proofs.Daemon.Numbering
import Telemetry.Proofs.Upload.Reading

namespace Telemetry

open Consent Daemon Event Upload

namespace Upload

namespace Collector

/-- The call that it accepts first, counted from one. -/
def firstAccepted (c : Collector) : Nat := (c.script.takeWhile Course.refused).length + 1

variable {c : Collector}

theorem firstAccepted_of_refused (h : c.course.refused = true) (b : Batch) :
    c.firstAccepted = (c.receive b).firstAccepted + 1 := by
  rw [course] at h
  rw [firstAccepted, firstAccepted, receive]
  cases hs : c.script with
  | nil =>
    rw [hs] at h
    cases h
  | cons course rest =>
    rw [hs] at h
    change course.refused = true at h
    rw [List.takeWhile_cons_of_pos h, List.length_cons, List.drop_succ_cons, List.drop_zero]

theorem firstAccepted_of_accepted (h : c.course.refused = false) : c.firstAccepted = 1 := by
  rw [course] at h
  rw [firstAccepted]
  cases hs : c.script with
  | nil => rfl
  | cons course rest =>
    rw [hs] at h
    change course.refused = false at h
    rw [List.takeWhile_cons_of_neg (by simp [h])]
    rfl

end Collector

namespace Batch

/-- What a batch says, without the number and the times of its attempt. -/
def contents (b : Batch) :
    Uuid × List Singular × List Aggregate × List Sequence × List Report :=
  (b.machine, b.singulars, b.aggregates, b.sequences, b.tallies)

theorem length_encode_stamp (b : Batch) (number : UInt64) (clock : Clock) :
    (b.stamp number clock).encode.length = b.encode.length := by
  simp only [encode, stamp, Codec.encodeUInt64, Codec.encodeInt64, List.length_append,
    Codec.length_le]

theorem ofBody_stamp {b : Batch} (hs : b.encode.length < Codec.capacity 8) (number : UInt64)
    (clock : Clock) :
    ∃ r, ofBody (b.stamp number clock).body = .ok r ∧ r.sendNumber = number ∧
      r.contents = b.contents := by
  rw [← length_encode_stamp b number clock] at hs
  exact ⟨b.stamp number clock, ofBody_body hs, rfl, rfl⟩

end Batch

structure Calls (f : InFlight) (n : Nat) (calls : List Delivery) : Prop where
  stamped : ∀ call ∈ calls, ∃ clock, call.batch = f.batch.stamp call.batch.sendNumber clock
  numbers : calls.map (fun call => call.batch.sendNumber.toNat) = List.range' n calls.length

theorem Calls.nil (f : InFlight) (n : Nat) : Calls f n [] :=
  ⟨fun _ h => (List.not_mem_nil h).elim, rfl⟩

theorem Calls.cons {f : InFlight} {n : Nat} {call : Delivery} {calls : List Delivery}
    {clock : Clock} (hb : call.batch = f.batch.stamp call.batch.sendNumber clock)
    (hn : call.batch.sendNumber.toNat = n) (h : Calls f (n + 1) calls) :
    Calls f n (call :: calls) := by
  constructor
  · intro x hx
    rcases List.mem_cons.1 hx with rfl | hx
    · exact ⟨clock, hb⟩
    · exact h.stamped x hx
  · rw [List.map_cons, hn, h.numbers, List.length_cons, List.range'_succ]

end Upload

namespace Daemon

variable {d : Daemon} {c : Collector} {f : InFlight}

theorem generation_le_undergo (d : Daemon) (m : Meanwhile) :
    d.gate.generation ≤ (d.undergo m).gate.generation := by
  cases m with
  | setEnabled enabled => exact (Site.Advances.of_effect (effect_setEnabled d 0 enabled)).le
  | count i => exact Nat.le_of_eq (congrArg Gate.generation (gate_settled_commit d [i])).symm
  | advance | loseTally | loseCache => exact Nat.le_refl _

theorem generation_le_foldl_undergo (d : Daemon) (ms : List Meanwhile) :
    d.gate.generation ≤ (ms.foldl undergo d).gate.generation := by
  induction ms generalizing d with
  | nil => exact Nat.le_refl _
  | cons m ms ih => exact Nat.le_trans (generation_le_undergo d m) (ih (d.undergo m))

theorem generation_le_attempts (f : InFlight) (total left : Nat) (last : Option Http.SendError)
    (d : Daemon) (c : Collector) :
    d.gate.generation ≤ (attempts f total left last d c).2.1.gate.generation := by
  induction left generalizing last d c with
  | zero => exact Nat.le_refl _
  | succ left ih =>
    rw [attempts]
    cases hb : d.beginAttempt f with
    | none => exact Nat.le_refl _
    | some p =>
      have hm := generation_le_foldl_undergo p.2 c.course.meanwhile
      rw [(passed_beginAttempt hb).gate] at hm
      dsimp only
      split
      · exact Nat.le_trans hm (ih _ _ _)
      · exact hm

/-- Without a revocation there is a call for each attempt up to the first that is accepted, or for all
that are allowed. -/
theorem attempts_calls {total left n : Nat} {last : Option Http.SendError}
    (hn : SendCounter.Counts d.sendFile n) (hd : d.gate.generation = f.generation)
    (hg : (attempts f total left last d c).2.1.gate.generation = f.generation)
    (hsize : n + min c.firstAccepted left < UInt64.size) (hleft : left ≤ total) :
    ∃ calls, Calls f n calls ∧ calls.length = min c.firstAccepted left ∧
      (attempts f total left last d c).2.2.received = c.received ++ calls ∧
      SendCounter.Counts (attempts f total left last d c).2.1.sendFile (n + calls.length) ∧
      (attempts f total left last d c).1 =
        if c.firstAccepted ≤ left then .ok (total - left + c.firstAccepted)
        else .error (.gaveUp total (if left = 0 then last else some (.status 503))) := by
  have hpos : 0 < c.firstAccepted := Nat.succ_pos _
  induction left generalizing n last d c with
  | zero =>
    refine ⟨[], .nil f n, (Nat.min_zero _).symm, (List.append_nil _).symm, hn, ?_⟩
    rw [if_neg (Nat.not_le.2 hpos)]
    rfl
  | succ left ih =>
    obtain ⟨b, d₁, hb⟩ : ∃ b d₁, d.beginAttempt f = some (b, d₁) := ⟨_, _, if_pos hd⟩
    obtain ⟨hnumber, hcounts, hstamp⟩ := beginAttempt_counted hn (by omega) hb
    rw [attempts, hb] at hg ⊢
    dsimp only at hg ⊢
    -- what happens meanwhile leaves the count alone
    have hfile := sendFile_foldl_undergo d₁ c.course.meanwhile
    have hgeneration := generation_le_foldl_undergo d₁ c.course.meanwhile
    rw [(passed_beginAttempt hb).gate, hd] at hgeneration
    generalize c.course.meanwhile.foldl undergo d₁ = d₂ at hg hfile hgeneration ⊢
    rw [← hfile] at hcounts
    cases hr : c.course.refused with
    | true =>
      have hk := Collector.firstAccepted_of_refused hr b
      rw [hr, if_pos rfl] at hg
      have hle := generation_le_attempts f total left (some (.status 503)) d₂ (c.receive b)
      obtain ⟨calls, hcalls, hlen, hreceived, hfile', hresult⟩ :=
        ih hcounts (Nat.le_antisymm (hg ▸ hle) hgeneration) hg (by omega) (by omega)
          (Nat.succ_pos _)
      refine ⟨⟨b, false⟩ :: calls, .cons hstamp hnumber hcalls, ?_, ?_, ?_, ?_⟩
      · rw [List.length_cons, hlen, hk]
        omega
      · rw [if_pos rfl, hreceived, Collector.receive, hr, List.append_assoc]
        rfl
      · rw [if_pos rfl, List.length_cons, Nat.add_comm calls.length, ← Nat.add_assoc]
        exact hfile'
      · rw [if_pos rfl, hresult, hk]
        by_cases hk' : (c.receive b).firstAccepted ≤ left
        · rw [if_pos hk', if_pos (Nat.succ_le_succ hk')]
          congr 1
          omega
        · rw [if_neg hk', if_neg fun h => hk' (Nat.le_of_succ_le_succ h),
            if_neg (Nat.succ_ne_zero left)]
          split <;> rfl
    | false =>
      have hk := Collector.firstAccepted_of_accepted hr
      refine ⟨[⟨b, true⟩], .cons hstamp hnumber (.nil f _), ?_, ?_, hcounts, ?_⟩
      · rw [hk]
        exact (Nat.min_eq_left (Nat.succ_le_succ (Nat.zero_le left))).symm
      · rw [if_neg Bool.false_ne_true, Collector.receive, hr]
        rfl
      · rw [if_neg Bool.false_ne_true, hk, if_pos (Nat.succ_le_succ (Nat.zero_le left))]
        have hone : total - left = total - (left + 1) + 1 := by omega
        exact congrArg Except.ok hone

/-- The calls that an upload makes for what it gathered, numbered from `n` on, and how it ends. -/
structure Tried (d : Daemon) (c : Collector) (trigger : Trigger) (f : InFlight) (n : Nat)
    (calls : List Delivery) : Prop where
  made : (d.upload c trigger).2.2.received = c.received ++ calls
  count : calls.length = min c.firstAccepted d.config.upload.maxAttempts
  result : (d.upload c trigger).1 =
    if c.firstAccepted ≤ d.config.upload.maxAttempts then
      .ok ⟨f.batch.recordCount, f.batch.tallies.length, c.firstAccepted⟩
    else .error (.upload (SendFailure.gaveUp d.config.upload.maxAttempts
      (if d.config.upload.maxAttempts = 0 then none else some (.status 503))).message)
  bodies : f.batch.encode.length < Codec.capacity 8 → ∀ call ∈ calls,
    ∃ b, Batch.ofBody call.batch.body = .ok b ∧ b.sendNumber = call.batch.sendNumber ∧
      b.contents = f.batch.contents
  numbers : calls.map (fun call => call.batch.sendNumber.toNat) = List.range' n calls.length
  counts : SendCounter.Counts (d.upload c trigger).2.1.sendFile (n + calls.length)

theorem upload_attempts {d₁ : Daemon} {trigger : Trigger} (hp : d.prepare trigger = (.ok f, d₁))
    (he : f.batch.isEmpty = false) :
    let r := attempts f d₁.config.upload.maxAttempts d₁.config.upload.maxAttempts none d₁ c
    (d.upload c trigger).1 =
        (r.1.map fun n => ⟨f.batch.recordCount, f.batch.tallies.length, n⟩).mapError
          (fun e => .upload e.message) ∧
      (d.upload c trigger).2.1.gate = r.2.1.gate ∧
      (d.upload c trigger).2.1.sendFile = r.2.1.sendFile ∧
      (d.upload c trigger).2.2 = r.2.2 := by
  cases ha : attempts f d₁.config.upload.maxAttempts d₁.config.upload.maxAttempts none d₁ c with
  | mk r p =>
    obtain ⟨d₂, c'⟩ := p
    cases r with
    | ok n =>
      rw [upload_of_accepted hp he ha]
      exact ⟨rfl, (shifted_completeDelivered d₂ f).gate,
        (shifted_completeDelivered d₂ f).sendFile, rfl⟩
    | error e =>
      rw [upload_of_failed hp he ha]
      exact ⟨rfl, (shifted_completeFailed d₂ f).gate,
        (shifted_completeFailed d₂ f).sendFile, rfl⟩

theorem tried_of_prepare {d₁ : Daemon} {trigger : Trigger} {n : Nat}
    (hp : d.prepare trigger = (.ok f, d₁)) (he : f.batch.isEmpty = false)
    (hn : SendCounter.Counts d.sendFile n)
    (hg : (d.upload c trigger).2.1.gate.generation = d.gate.generation)
    (hsize : n + min c.firstAccepted d.config.upload.maxAttempts < UInt64.size) :
    ∃ calls, Tried d c trigger f n calls := by
  obtain ⟨-, hgather⟩ := prepare_ok hp
  obtain ⟨_, _, _, hgathered⟩ := gather_ok hgather
  have hconfig : d₁.config = d.config := by rw [hgathered.left]
  have hgate : d₁.gate = d.gate := by rw [hgathered.left]
  have hfile : d₁.sendFile = d.sendFile := by rw [hgathered.left]
  have hbegun : d₁.gate.generation = f.generation := by rw [hgate, hgathered.noted]
  obtain ⟨hresult, hgate', hfile', hc⟩ := upload_attempts (c := c) hp he
  rw [hgate', ← hgathered.noted] at hg
  rw [← hfile] at hn
  rw [← hconfig] at hsize
  obtain ⟨calls, hcalls, hlen, hreceived, hcounts, hend⟩ :=
    attempts_calls hn hbegun hg hsize (Nat.le_refl _)
  rw [hconfig, Nat.sub_self, Nat.zero_add] at hend
  refine ⟨calls, ?_, ?_, ?_, ?_, hcalls.numbers, ?_⟩
  · rw [hc]
    exact hreceived
  · rw [← hconfig]
    exact hlen
  · rw [hresult, hconfig, hend]
    split <;> rfl
  · intro hs call hcall
    obtain ⟨clock, hstamp⟩ := hcalls.stamped call hcall
    have hread := Batch.ofBody_stamp hs call.batch.sendNumber clock
    rw [← hstamp] at hread
    exact hread
  · rw [hfile']
    exact hcounts

end Daemon

namespace Site

/-- Over every history, restarts included, the numbers of what is sent follow each other from the one
that was kept, and what is kept is the next. An upload that nobody revokes calls the collector until it
accepts or no attempt is left, with the same contents each time; one with nothing to send makes no call
and takes no number. -/
theorem attempts_numbered {config : Daemon.Config} {disk : Daemon.Disk} {clock : Clock} {d : Daemon}
    (ha : assemble config disk clock = .ok d) {n : Nat}
    (hn : SendCounter.Counts disk.sendCount n) (acts : List Act)
    (hsize : n + ((opened d).run acts).sent.length < UInt64.size) :
    Numbered n ((opened d).run acts) ∧
      ∀ (e e' : Daemon) (c : Collector) (trigger : Trigger) (f : InFlight) (m : Nat),
        e.prepare trigger = (.ok f, e') → SendCounter.Counts e.sendFile m →
          (f.batch.isEmpty = true → e.upload c trigger = (.ok .none, e', c) ∧
            e'.sendFile = e.sendFile) ∧
          (f.batch.isEmpty = false →
            (e.upload c trigger).2.1.gate.generation = e.gate.generation →
            m + min c.firstAccepted e.config.upload.maxAttempts < UInt64.size →
              ∃ calls, Tried e c trigger f m calls) := by
  constructor
  · rw [← sendFile_assemble ha] at hn
    exact (numbered_opened hn).run acts hsize
  · intro e e' c trigger f m hp hm
    have hfile : e'.sendFile = e.sendFile := by
      have hprepared := (shifted_prepare e trigger).sendFile
      rw [hp] at hprepared
      exact hprepared
    exact ⟨fun he => ⟨upload_of_isEmpty hp he, hfile⟩,
      fun he hg hroom => tried_of_prepare hp he hm hg hroom⟩

def continued : Daemon.Disk :=
  { Daemon.Disk.empty with
    consent := .file (State.toKeyFile ⟨true, true, .production⟩).contents
    sendCount := .file (SendCounter.file 41).contents }

def sentAgain : List Act :=
  [event 1, .check .requested, .gather, .attempt, .answer false, .attempt, .answer true, .complete,
    .shutdown, .restart, event 2, .check .scheduled, .gather, .attempt]

theorem attempts_numbered_continued :
    ∃ d, assemble .standard continued (.start .epoch) = .ok d ∧
      SendCounter.Counts continued.sendCount 41 ∧
      Numbered 41 ((opened d).run sentAgain) ∧ ((opened d).run sentAgain).sent.length = 3 ∧
      let e := ((opened d).run [event 1]).daemon
      let c := Collector.fresh.plan [⟨[.advance 5], true⟩, ⟨[], true⟩]
      ∃ f calls, f.batch.isEmpty = false ∧ Tried e c .requested f 41 calls ∧ calls.length = 3 := by
  have ha : assemble .standard continued (.start .epoch) = .ok _ := rfl
  have hcounts : SendCounter.Counts continued.sendCount 41 :=
    ⟨41, SendCounter.current_file 41, rfl⟩
  obtain ⟨hnumbered, hupload⟩ := attempts_numbered ha hcounts sentAgain (by decide +kernel)
  refine ⟨_, ha, hcounts, hnumbered, by decide +kernel, ?_⟩
  intro e c
  have hfull : (e.prepare .requested).1.toOption.map (fun f => f.batch.isEmpty) = some false := by
    decide +kernel
  cases hp : e.prepare .requested with
  | mk r e' =>
    rw [hp] at hfull
    cases r with
    | error fault => cases hfull
    | ok f =>
      have he : f.batch.isEmpty = false := Option.some.inj hfull
      have hm : SendCounter.Counts e.sendFile 41 := ⟨41, by decide +kernel, rfl⟩
      obtain ⟨calls, htried⟩ := (hupload e e' c .requested f 41 hp hm).2 he (by decide +kernel)
        (by decide +kernel)
      refine ⟨f, calls, he, htried, ?_⟩
      rw [htried.count]
      decide +kernel

end Site

end Telemetry

import Mathlib.Algebra.Ring.Int.Defs
import Telemetry.Proofs.Calendar.Month
import Telemetry.Proofs.Tally.Settlement

namespace Telemetry.Tally

open Calendar Codec

section Order

def firstBy {α β : Type} [DecidableEq β] (part : α → β) (lt : β → β → Bool) (rest : α → α → Bool)
    (a b : α) : Bool :=
  if part a ≠ part b then lt (part a) (part b) else rest a b

variable {α β : Type} [DecidableEq β] {part : α → β} {lt : β → β → Bool} {rest : α → α → Bool}

theorem firstBy_trans (hlt : ∀ x y z, lt x y → lt y z → lt x z) (hirrefl : ∀ x, lt x x = false)
    (hrest : ∀ a b c, rest a b → rest b c → rest a c) {a b c : α} (hab : firstBy part lt rest a b)
    (hbc : firstBy part lt rest b c) : firstBy part lt rest a c := by
  unfold firstBy at *
  by_cases h : part a = part b <;> by_cases h' : part b = part c
  · rw [if_neg (not_not.2 h)] at hab
    rw [if_neg (not_not.2 h')] at hbc
    rw [if_neg (not_not.2 (h.trans h'))]
    exact hrest a b c hab hbc
  · rw [if_pos h'] at hbc
    rw [h, if_pos h']
    exact hbc
  · rw [if_pos h] at hab
    rw [← h', if_pos h]
    exact hab
  · rw [if_pos h] at hab
    rw [if_pos h'] at hbc
    have hac := hlt _ _ _ hab hbc
    have hne : part a ≠ part c := by
      intro he
      rw [he, hirrefl] at hac
      cases hac
    rw [if_pos hne]
    exact hac

theorem firstBy_total (hlt : ∀ x y, x ≠ y → lt x y ∨ lt y x) (hrest : ∀ a b, rest a b ∨ rest b a)
    (a b : α) : firstBy part lt rest a b ∨ firstBy part lt rest b a := by
  unfold firstBy
  by_cases h : part a = part b
  · rw [if_neg (not_not.2 h), if_neg (not_not.2 h.symm)]
    exact hrest a b
  · rw [if_pos h, if_pos (Ne.symm h)]
    exact hlt _ _ h

theorem Key.le_eq : Key.le =
    firstBy Key.event Uuid.before (firstBy Key.bucket (fun x y => x < y)
      (firstBy Key.user (fun x y => x < y) fun a b => a.payload ≤ b.payload)) := rfl

theorem Key.le_trans (a b c : Key) (hab : a.le b) (hbc : b.le c) : a.le c := by
  rw [le_eq] at *
  refine firstBy_trans ?_ ?_ (fun _ _ _ => firstBy_trans ?_ ?_ fun _ _ _ => firstBy_trans ?_ ?_ ?_)
    hab hbc
  · simp only [Uuid.before, decide_eq_true_eq]
    exact fun x y z => List.lt_trans
  · exact fun x => decide_eq_false (List.lt_irrefl x.bytes)
  · simp only [decide_eq_true_eq]
    exact fun x y z => List.lt_trans
  · exact fun x => decide_eq_false (List.lt_irrefl x)
  · simp only [decide_eq_true_eq]
    exact fun x y z => Int.lt_trans
  · simp
  · simp only [decide_eq_true_eq]
    exact fun x y z => List.le_trans

theorem Key.le_total (a b : Key) : (a.le b || b.le a) = true := by
  have hlists {α : Type} [LT α] [Std.Asymm (α := α) (· < ·)] [Std.Trichotomous (α := α) (· < ·)]
      {x y : List α} (h : x ≠ y) : x < y ∨ y < x := by
    by_contra hn
    rw [not_or] at hn
    exact h (List.le_antisymm hn.2 hn.1)
  rw [Bool.or_eq_true, le_eq]
  refine firstBy_total ?_ (firstBy_total ?_ (firstBy_total ?_ ?_)) a b
  · simp only [Uuid.before, decide_eq_true_eq]
    exact fun x y h => hlists fun he => h (Uuid.ext he)
  · simp only [decide_eq_true_eq]
    exact fun x y h => hlists h
  · simp only [decide_eq_true_eq]
    exact fun x y h => Int.lt_or_gt_of_ne h
  · simp only [decide_eq_true_eq]
    exact fun a b => List.le_total a.payload b.payload

theorem Table.pairwise_sorted (t : Table) : t.sorted.Pairwise fun a b => a.key.le b.key :=
  List.pairwise_mergeSort (fun a b c => Key.le_trans a.key b.key c.key)
    (fun a b => Key.le_total a.key b.key) t

theorem Key.of_le {a b : Key} (h : a.le b) : a.event.before b.event ∨
    a.event = b.event ∧ (a.bucket < b.bucket ∨ a.bucket = b.bucket) := by
  rw [le] at h
  split at h
  · exact .inl h
  · next he =>
    refine .inr ⟨not_not.1 he, ?_⟩
    split at h
    · exact .inl (of_decide_eq_true h)
    · next hb => exact .inr (not_not.1 hb)

end Order

section Report

variable {t : Table}

theorem Stored.exists_report? {s : Stored} (hs : s.key.Genuine) : ∃ r, s.report? = some r ∧
    (r.id, r.key, r.counter) = (s.id, s.key, saturate s.counter) := by
  have hreport : ∃ r, s.report? = some r := by
    obtain ⟨_, payload, -, hpayload, hlength⟩ := hs
    rw [hpayload] at hlength
    rw [report?, hpayload, Payload.restore_store (Payload.measured_of_length hlength)]
    exact ⟨_, rfl⟩
  obtain ⟨r, hr⟩ := hreport
  refine ⟨r, hr, ?_⟩
  rw [id_of_report? hr, key_of_report? hs hr, counter_of_report? hr]

theorem filterMap_report? {ss : List Stored} (hs : ∀ s ∈ ss, s.key.Genuine) :
    ((ss.filterMap Stored.report?).map fun r => (r.id, r.key, r.counter)) =
      ss.map fun s => (s.id, s.key, saturate s.counter) := by
  induction ss with
  | nil => rfl
  | cons s ss ih =>
    obtain ⟨r, hr, hread⟩ := Stored.exists_report? (hs s List.mem_cons_self)
    rw [List.filterMap_cons, hr, List.map_cons, List.map_cons, hread,
      ih fun s' hs' => hs s' (List.mem_cons_of_mem s hs')]

theorem Table.exists_report (hg : ∀ s ∈ t, s.key.Genuine) (hf : ∀ s ∈ t, fits s.counter) :
    ∃ rows, report t = .ok rows ∧
      (rows.map fun r => (r.id, r.key, r.counter)).Perm
        (t.map fun s => (s.id, s.key, saturate s.counter)) ∧
      rows.Pairwise fun a b => a.event.before b.event ∨
        a.event = b.event ∧ (a.bucket < b.bucket ∨ a.bucket = b.bucket) := by
  have hperm : t.sorted.Perm t := List.mergeSort_perm t _
  have hread := filterMap_report? fun s hs => hg s (hperm.mem_iff.1 hs)
  refine ⟨t.sorted.filterMap Stored.report?, ?_, ?_, ?_⟩
  · have hall : t.all Stored.readable = true := List.all_eq_true.2 hf
    simp only [report, hall, if_true]
  · rw [hread]
    exact hperm.map _
  · have hkeys : (t.sorted.filterMap Stored.report?).map Row.key = t.sorted.map Stored.key := by
      have h := congrArg (List.map fun x : Nat × Key × UInt32 => x.2.1) hread
      rwa [List.map_map, List.map_map] at h
    have hsorted : ((t.sorted.filterMap Stored.report?).map Row.key).Pairwise fun a b =>
        a.le b := by
      rw [hkeys, List.pairwise_map]
      exact t.pairwise_sorted
    exact (List.pairwise_map.1 hsorted).imp fun h => Key.of_le h

theorem Store.readAll_eq (prepared : Bool) (t : Table) :
    readAll ⟨some t, prepared⟩ = Table.report t := by
  simp only [readAll, query, List.filter_true]

end Report

def Store.commitAll (s : Store) (commits : List (List Increment)) : Except StorageError Store :=
  commits.foldlM Store.commit s

theorem Store.commitAll_eq (prepared : Bool) (t : Table) (commits : List (List Increment)) :
    commitAll ⟨some t, prepared⟩ commits = .ok ⟨some (t.commit commits.flatten), prepared⟩ := by
  induction commits generalizing t with
  | nil => rfl
  | cons is commits ih =>
    have hcommit : commit ⟨some t, prepared⟩ is = .ok ⟨some (t.commit is), prepared⟩ := by
      cases is <;> rfl
    rw [commitAll, List.foldlM_cons, hcommit, List.flatten_cons, Table.commit_append]
    exact ih (t.commit is)

namespace Table

/-- The table has the sum of what the increments count, one row for each key that they count under. -/
structure Counts (t : Table) (is : List Increment) : Prop where
  nodup : (t.map Stored.key).Nodup
  mem_keys : ∀ k, k ∈ t.map Stored.key ↔ ∃ i ∈ is, k = i.dayKeyOf ∨ k = i.monthKeyOf
  counter : ∀ r ∈ t, r.counter = counted is r.key

variable {t t' : Table} {is : List Increment}

theorem mem_keys_commit (t : Table) (is : List Increment) (k : Key) :
    k ∈ (t.commit is).map Stored.key ↔
      k ∈ t.map Stored.key ∨ ∃ i ∈ is, k = i.dayKeyOf ∨ k = i.monthKeyOf := by
  have hadd (t : Table) (key : Key) (amount : Int) :
      k ∈ (t.add key amount).map Stored.key ↔ k ∈ t.map Stored.key ∨ k = key := by
    rw [keys_add]
    split
    · next hmem => exact (or_iff_left_of_imp fun h => h ▸ hmem).symm
    · rw [List.mem_append, List.mem_singleton]
  induction is generalizing t with
  | nil => simp [commit]
  | cons i is ih =>
    have hcount : k ∈ (t.count i).map Stored.key ↔
        k ∈ t.map Stored.key ∨ k = i.dayKeyOf ∨ k = i.monthKeyOf := by
      rw [count, hadd, hadd, or_assoc]
    have hrest := ih (t.count i)
    rw [hcount, or_assoc] at hrest
    rw [List.exists_mem_cons_iff]
    exact hrest

theorem sound_commit_nil (hsum : ∀ k, counted is k < 2 ^ 63) : (commit [] is).Sound := by
  refine sound_nil.commit fun k => ?_
  have hk := hsum k
  rw [counter_of_not_mem (by simp)]
  omega

theorem counts_commit (hsum : ∀ k, counted is k < 2 ^ 63) : (commit [] is).Counts is where
  nodup := (sound_commit_nil hsum).keys
  mem_keys := by
    intro k
    rw [mem_keys_commit]
    simp
  counter := by
    intro r hr
    have hk := hsum r.key
    have hnil : counter [] r.key = 0 := rfl
    rw [← counter_of_mem (sound_commit_nil hsum).keys hr, sound_nil.counter_commit (by omega), hnil,
      Int.zero_add]

theorem counted_perm {is js : List Increment} (h : is.Perm js) (k : Key) :
    counted is k = counted js k := by
  rw [counted, sumOf_perm _ h, sumOf_perm _ h, counted]

theorem Counts.of_perm (h : t.Counts is) {js : List Increment} (hp : is.Perm js) : t.Counts js where
  nodup := h.nodup
  mem_keys := by
    intro k
    rw [h.mem_keys]
    simp only [hp.mem_iff]
  counter := by
    intro r hr
    rw [h.counter r hr, counted_perm hp]

theorem Counts.counter_eq (h : t.Counts is) (k : Key) : t.counter k = counted is k := by
  by_cases hk : k ∈ t.map Stored.key
  · obtain ⟨r, hr, rfl⟩ := List.mem_map.1 hk
    rw [counter_of_mem h.nodup hr, h.counter r hr]
  · have hnone := fun i hi => not_or.1 fun he => hk ((h.mem_keys k).2 ⟨i, hi, he⟩)
    have hday : sumOf (·.dayPart k) is = 0 :=
      sumOf_eq_zero fun i hi => if_neg (Ne.symm (hnone i hi).1)
    have hmonth : sumOf (·.monthPart k) is = 0 :=
      sumOf_eq_zero fun i hi => if_neg (Ne.symm (hnone i hi).2)
    rw [counter_of_not_mem hk, counted, hday, hmonth]
    rfl

theorem Counts.perm (h : t.Counts is) (h' : t'.Counts is) :
    (t'.map fun r => (r.key, r.counter)).Perm (t.map fun r => (r.key, r.counter)) := by
  have hread {t : Table} (h : t.Counts is) : (t.map fun r => (r.key, r.counter)) =
      (t.map Stored.key).map fun k => (k, (counted is k : Int)) := by
    rw [List.map_map]
    apply List.map_congr_left
    intro r hr
    rw [h.counter r hr]
    rfl
  rw [hread h, hread h']
  apply List.Perm.map
  rw [List.perm_ext_iff_of_nodup h'.nodup h.nodup]
  intro k
  rw [h.mem_keys, h'.mem_keys]

section Month

variable (d : Date) (monthly : EventId) (user : Int) (payload : Bytes)

/-- The keys of the days of a month whose counts the month's key counts too: those of the events with
the monthly identifier, of the user and of the payload. -/
def feeds (k : Key) : Bool :=
  k.bucket ∈ (daysOfMonth d).map dayKey ∧ k.event.monthly = monthly ∧ k.user = user ∧
    k.payload = payload

theorem feeds_dayKeyOf (i : Increment) : feeds d monthly user payload i.dayKeyOf ↔
    i.monthKeyOf = ⟨monthKey d, monthly, user, payload⟩ := by
  have hday : dayKey i.date ∈ (daysOfMonth d).map dayKey ↔ monthKey i.date = monthKey d := by
    rw [monthKey_eq_iff, ← mem_daysOfMonth, List.mem_map]
    constructor
    · rintro ⟨e, he, hkey⟩
      exact dayKey_inj hkey ▸ he
    · exact fun hi => ⟨i.date, hi, rfl⟩
  simp only [feeds, decide_eq_true_eq, Increment.dayKeyOf, Increment.monthKeyOf, Key.mk.injEq, hday]

theorem not_feeds_monthKeyOf (i : Increment) : ¬feeds d monthly user payload i.monthKeyOf := by
  rw [feeds, decide_eq_true_eq]
  rintro ⟨hmem, -⟩
  obtain ⟨e, -, he⟩ := List.mem_map.1 hmem
  exact dayKey_ne_monthKey e i.date he

theorem sumOf_counted {ks : List Key} (hks : ks.Nodup)
    (hall : ∀ i ∈ is, i.dayKeyOf ∈ ks ∧ i.monthKeyOf ∈ ks) (p : Key → Bool) :
    sumOf (counted is) (ks.filter p) =
      sumOf (fun i => if p i.dayKeyOf then i.amount.toNat else 0) is +
        sumOf (fun i => if p i.monthKeyOf then i.amount.toNat else 0) is := by
  -- of the keys, which differ, an increment counts under the one of its day and the one of its month
  have hone {key : Key} (hkey : key ∈ ks) (n : Nat) :
      sumOf (fun k => if key = k then n else 0) (ks.filter p) = if p key then n else 0 := by
    rw [sumOf_ite_eq (hks.filter p)]
    simp [List.mem_filter, hkey]
  induction is with
  | nil => exact sumOf_eq_zero fun _ _ => rfl
  | cons i is ih =>
    obtain ⟨hday, hmonth⟩ := hall i List.mem_cons_self
    have hrest := ih fun j hj => hall j (List.mem_cons_of_mem i hj)
    have hcons : counted (i :: is) = fun k =>
        (if i.dayKeyOf = k then i.amount.toNat else 0) +
          ((if i.monthKeyOf = k then i.amount.toNat else 0) + counted is k) := by
      funext k
      simp only [counted, sumOf_cons, Increment.dayPart, Increment.monthPart]
      omega
    rw [hcons, sumOf_add, sumOf_add, hone hday, hone hmonth, hrest, sumOf_cons, sumOf_cons]
    omega

theorem sum_map_natCast (measure : Key → Nat) (ks : List Key) :
    (ks.map fun k => (measure k : Int)).sum = sumOf measure ks := by
  induction ks with
  | nil => rfl
  | cons k ks ih => simp [ih]

theorem Counts.month (h : t.Counts is) :
    ((t.filter fun r => feeds d monthly user payload r.key).map Stored.counter).sum =
      t.counter ⟨monthKey d, monthly, user, payload⟩ := by
  have hall : ∀ i ∈ is, i.dayKeyOf ∈ t.map Stored.key ∧ i.monthKeyOf ∈ t.map Stored.key :=
    fun i hi => ⟨(h.mem_keys _).2 ⟨i, hi, .inl rfl⟩, (h.mem_keys _).2 ⟨i, hi, .inr rfl⟩⟩
  have hcounters : ((t.filter fun r => feeds d monthly user payload r.key).map Stored.counter) =
      ((t.map Stored.key).filter (feeds d monthly user payload)).map
        fun k => (counted is k : Int) := by
    rw [List.filter_map, List.map_map]
    apply List.map_congr_left
    intro r hr
    exact h.counter r (List.mem_filter.1 hr).1
  have hdays : (fun i : Increment =>
      if feeds d monthly user payload i.dayKeyOf then i.amount.toNat else 0) =
      (·.monthPart ⟨monthKey d, monthly, user, payload⟩) :=
    funext fun i => if_congr (feeds_dayKeyOf d monthly user payload i) rfl rfl
  have hmonths : sumOf (fun i : Increment =>
      if feeds d monthly user payload i.monthKeyOf then i.amount.toNat else 0) is = 0 :=
    sumOf_eq_zero fun i _ => if_neg (not_feeds_monthKeyOf d monthly user payload i)
  have hnone : sumOf (·.dayPart ⟨monthKey d, monthly, user, payload⟩) is = 0 :=
    sumOf_eq_zero fun i _ => if_neg fun he => dayKey_ne_monthKey i.date d (congrArg Key.bucket he)
  rw [hcounters, sum_map_natCast, sumOf_counted h.nodup hall, hdays, hmonths, h.counter_eq, counted,
    hnone, Nat.zero_add, Nat.add_zero]

end Month

end Table

open Table

/-- Commits to an empty store leave one row for each key that an increment counts under, with the sum
of what is counted, whatever their order and their grouping. The days of a month then add up to the
month, for every monthly identifier, user and payload, and the rows are read once each, by event and
then by bucket. -/
theorem contents_of_commits (prepared : Bool) (commits : List (List Increment))
    (hsum : ∀ k, counted commits.flatten k < 2 ^ 63)
    (hpayload : ∀ i ∈ commits.flatten, i.payload.store.length < capacity 8) :
    ∃ t, Store.commitAll ⟨some [], prepared⟩ commits = .ok ⟨some t, prepared⟩ ∧
      t.Counts commits.flatten ∧
      (∀ commits', commits'.flatten.Perm commits.flatten →
        ∃ t', Store.commitAll ⟨some [], prepared⟩ commits' = .ok ⟨some t', prepared⟩ ∧
          (t'.map fun r => (r.key, r.counter)).Perm (t.map fun r => (r.key, r.counter))) ∧
      (∀ d monthly user payload,
        ((t.filter fun r => feeds d monthly user payload r.key).map Stored.counter).sum =
          t.counter ⟨monthKey d, monthly, user, payload⟩) ∧
      ∃ rows, Store.readAll ⟨some t, prepared⟩ = .ok rows ∧
        (rows.map fun r => (r.id, r.key, r.counter)).Perm
          (t.map fun r => (r.id, r.key, saturate r.counter)) ∧
        rows.Pairwise fun a b => a.event.before b.event ∨
          a.event = b.event ∧ (a.bucket < b.bucket ∨ a.bucket = b.bucket) := by
  have hcounts := counts_commit hsum
  refine ⟨_, Store.commitAll_eq prepared [] commits, hcounts, fun commits' hperm => ?_,
    fun d monthly user payload => hcounts.month d monthly user payload, ?_⟩
  · have hsum' : ∀ k, counted commits'.flatten k < 2 ^ 63 := fun k => by
      rw [counted_perm hperm]
      exact hsum k
    exact ⟨_, Store.commitAll_eq prepared [] commits',
      hcounts.perm ((counts_commit hsum').of_perm hperm)⟩
  · have hgenuine := genuine_commit (t := []) (fun s hs => absurd hs List.not_mem_nil) hpayload
    rw [Store.readAll_eq]
    refine exists_report hgenuine fun s hs => ?_
    have hfits := (sound_commit_nil hsum).fits s.key
    rwa [counter_of_mem hcounts.nodup hs] at hfits

theorem contents_of_commits_regrouped :
    let plain : Increment := ⟨.nil, .epoch, 1000, none, 7⟩
    let flagged : Increment := ⟨.nil, .epoch, 1000, some (.bool false), 5⟩
    ∃ t t', Store.commitAll ⟨some [], false⟩ [[plain, flagged], [], [plain]] =
        .ok ⟨some t, false⟩ ∧
      Store.commitAll ⟨some [], false⟩ [[flagged, plain, plain]] = .ok ⟨some t', false⟩ ∧
      (t'.map fun r => (r.key, r.counter)).Perm (t.map fun r => (r.key, r.counter)) ∧
      t.counter plain.dayKeyOf = 14 ∧ t.counter flagged.dayKeyOf = 5 := by
  intro plain flagged
  have hsum : ∀ k, counted [[plain, flagged], [], [plain]].flatten k < 2 ^ 63 :=
    fun k => Nat.lt_of_le_of_lt (counted_le _ k) (by decide)
  obtain ⟨t, ht, hcounts, hgroup, -, -⟩ :=
    contents_of_commits false [[plain, flagged], [], [plain]] hsum (by decide)
  obtain ⟨t', ht', hperm⟩ := hgroup [[flagged, plain, plain]] (by decide)
  refine ⟨t, t', ht, ht', hperm, ?_, ?_⟩
  · rw [hcounts.counter_eq]
    decide
  · rw [hcounts.counter_eq]
    decide

end Telemetry.Tally

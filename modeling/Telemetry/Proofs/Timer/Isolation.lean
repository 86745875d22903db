import Mathlib.Data.List.Nodup
import Mathlib.Data.List.Pairwise
import Telemetry.Proofs.Timer.Portion

namespace Telemetry.Timer

open Calendar Tally

/-- The run without what concerns other clients only, where the client stops renamed handles. -/
def alone (c : ClientId) (ρ : TimerHandle → TimerHandle) (ts : List Timed) : List Timed :=
  (ts.filter (·.operation.concerns c)).map (Timed.rename ρ)

theorem alone_cons (c : ClientId) (ρ : TimerHandle → TimerHandle) (t : Timed) (ts : List Timed) :
    alone c ρ (t :: ts) =
      if t.operation.concerns c then t.rename ρ :: alone c ρ ts else alone c ρ ts := by
  rw [alone, List.filter_cons]
  split <;> rfl

theorem starts_alone_le (c : ClientId) (ρ : TimerHandle → TimerHandle) (ts : List Timed) :
    starts (alone c ρ ts) ≤ starts ts := by
  induction ts with
  | nil => exact Nat.le_refl _
  | cons t ts ih =>
    rw [alone_cons, starts_cons]
    split
    · rw [starts_cons, Timed.starts_rename]
      exact Nat.add_le_add_left ih _
    · exact Nat.le_trans ih (Nat.le_add_left _ _)

namespace Registry

/-- What a client sees of a run. -/
def view (r : Registry) (c : ClientId) : List Timed → List Outcome
  | [] => []
  | t :: ts => (r.seen c t).toList ++ (r.perform t).2.view c ts

def handed (r : Registry) (c : ClientId) (ts : List Timed) : List TimerHandle :=
  (r.view c ts).filterMap Outcome.given?

variable {c : ClientId} {ρ : TimerHandle → TimerHandle} {H : List TimerHandle} {r r' : Registry}

theorem given_seen (r : Registry) (c : ClientId) (t : Timed) :
    (r.seen c t).bind Outcome.given? =
      if t.operation.grants c then some ⟨r.nextHandle⟩ else none := by
  obtain ⟨operation, now, today⟩ := t
  cases operation with
  | start s =>
    by_cases hs : s.client = c
    · simp only [seen, Operation.grants, if_pos hs, decide_eq_true hs]
      rfl
    · simp [seen, Operation.grants, hs]
  | stop client handle =>
    by_cases hc : client = c
    · simp only [seen, perform, if_pos hc]
      split <;> rfl
    · simp [seen, hc, Operation.grants]
  | disconnect client =>
    simp only [seen, perform]
    split <;> rfl
  | drain => rfl
  | purge => rfl
  | split day => rfl

theorem handed_cons (r : Registry) (c : ClientId) (t : Timed) (ts : List Timed) :
    r.handed c (t :: ts) = if t.operation.grants c then
      ⟨r.nextHandle⟩ :: (r.perform t).2.handed c ts else (r.perform t).2.handed c ts := by
  have hview : r.handed c (t :: ts) =
      ((r.seen c t).bind Outcome.given?).toList ++ (r.perform t).2.handed c ts := by
    rw [handed, view, List.filterMap_append, ← handed]
    cases r.seen c t with
    | none => rfl
    | some o => cases ho : o.given? <;> simp [ho]
  rw [hview, given_seen]
  split <;> rfl

section Run

theorem Apart.run {ts : List Timed} (h : Apart c ρ r r') (hr : r.Coherent) (hr' : r'.Coherent)
    (h0 : 0 < r.nextHandle.toNat) (h0' : 0 < r'.nextHandle.toNat)
    (hn : r.nextHandle.toNat + starts ts < UInt64.size)
    (hn' : r'.nextHandle.toNat + starts ts < UInt64.size)
    (hinj : ∀ x ∈ H, ∀ y, ρ x = ρ y → x = y) (hH : Among H c r) (hsub : r.handed c ts ⊆ H)
    (hown : (r.handed c ts).map ρ = r'.handed c (alone c ρ ts)) :
    (r.view c ts).map (Outcome.rename ρ) = r'.view c (alone c ρ ts) := by
  induction ts generalizing r r' with
  | nil => rfl
  | cons t ts ih =>
    rw [starts_cons] at hn hn'
    obtain ⟨hr₁, hnext⟩ := coherent_perform hr h0 (t := t) (by omega)
    rw [handed_cons] at hsub hown
    obtain ⟨hgiven, hsub₁⟩ : (t.operation.grants c → ⟨r.nextHandle⟩ ∈ H) ∧
        (r.perform t).2.handed c ts ⊆ H := by
      split at hsub
      · exact ⟨fun _ => hsub List.mem_cons_self, fun x hx => hsub (List.mem_cons_of_mem _ hx)⟩
      · next hg => exact ⟨fun hg' => absurd hg' hg, hsub⟩
    have hH₁ := hH.perform hr hgiven
    rw [alone_cons] at hown ⊢
    by_cases ht : t.operation.concerns c
    · rw [if_pos ht] at hown ⊢
      obtain ⟨hr₁', hnext'⟩ := coherent_perform hr' h0' (t := t.rename ρ) (by
        rw [Timed.starts_rename]
        omega)
      rw [Timed.starts_rename] at hnext'
      obtain ⟨hρ, hown₁⟩ : (t.operation.grants c → ρ ⟨r.nextHandle⟩ = ⟨r'.nextHandle⟩) ∧
          ((r.perform t).2.handed c ts).map ρ =
            (r'.perform (t.rename ρ)).2.handed c (alone c ρ ts) := by
        rw [handed_cons, Timed.grants_rename] at hown
        split at hown
        · obtain ⟨hhead, htail⟩ := List.cons.inj hown
          exact ⟨fun _ => hhead, htail⟩
        · next hg => exact ⟨fun hg' => absurd hg' hg, hown⟩
      obtain ⟨hseen, happart⟩ := h.perform hr hr' hinj hH ht hρ
      have hrest := ih happart hr₁ hr₁' (by omega) (by omega) (by omega) (by omega) hH₁ hsub₁ hown₁
      rw [view, view, List.map_append, hseen, Option.toList_map, hrest]
    · -- the first registry alone takes the step, and the client's portion of it stays
      rw [if_neg ht] at hown ⊢
      obtain ⟨huntouched, hseen⟩ := untouched_perform hr (Bool.of_not_eq_true ht)
      have hg : ¬t.operation.grants c := fun hg => ht (Operation.concerns_of_grants hg)
      rw [if_neg hg] at hown
      rw [view, hseen, Option.toList_none, List.nil_append]
      exact ih (h.of_untouched huntouched) hr₁ hr' (by omega) h0' (by omega) (by omega) hH₁ hsub₁
        hown

theorem handed_sorted {ts : List Timed} (hr : r.Coherent) (h0 : 0 < r.nextHandle.toNat)
    (hn : r.nextHandle.toNat + starts ts < UInt64.size) :
    (r.handed c ts).Pairwise (·.number < ·.number) ∧
      ∀ x ∈ r.handed c ts, r.nextHandle ≤ x.number := by
  induction ts generalizing r with
  | nil => exact ⟨.nil, fun x hx => nomatch hx⟩
  | cons t ts ih =>
    rw [starts_cons] at hn
    obtain ⟨hr₁, hnext⟩ := coherent_perform hr h0 (t := t) (by omega)
    obtain ⟨hsorted, habove⟩ := ih hr₁ (by omega) (by omega)
    rw [handed_cons]
    split
    · next hg =>
      have hone : t.operation.starts = 1 := by
        rw [Operation.starts_of_concerns (Operation.concerns_of_grants hg), if_pos hg]
      have hlt : ∀ x ∈ (r.perform t).2.handed c ts, r.nextHandle < x.number := by
        intro x hx
        have hle := UInt64.le_iff_toNat_le.1 (habove x hx)
        rw [UInt64.lt_iff_toNat_lt]
        omega
      refine ⟨hsorted.cons hlt, fun x hx => ?_⟩
      rcases List.mem_cons.1 hx with rfl | hx
      · exact UInt64.le_refl _
      · exact UInt64.le_of_lt (hlt x hx)
    · refine ⟨hsorted, fun x hx => ?_⟩
      have hle := UInt64.le_iff_toNat_le.1 (habove x hx)
      rw [UInt64.le_iff_toNat_le]
      omega

theorem handed_alone {ts : List Timed} (hr' : r'.Coherent) (h0' : 0 < r'.nextHandle.toNat)
    (hn' : r'.nextHandle.toNat + starts ts < UInt64.size) :
    r'.handed c (alone c ρ ts) = (List.range' r'.nextHandle.toNat (r.handed c ts).length).map
      fun n => ⟨UInt64.ofNat n⟩ := by
  induction ts generalizing r r' with
  | nil => rfl
  | cons t ts ih =>
    rw [starts_cons] at hn'
    rw [alone_cons, handed_cons r]
    by_cases ht : t.operation.concerns c
    · obtain ⟨hr₁', hnext'⟩ := coherent_perform hr' h0' (t := t.rename ρ) (by
        rw [Timed.starts_rename]
        omega)
      rw [Timed.starts_rename] at hnext'
      have hrest := ih (r := (r.perform t).2) hr₁' (by omega) (by omega)
      rw [Operation.starts_of_concerns ht] at hnext'
      rw [if_pos ht, handed_cons, Timed.grants_rename]
      split
      · next hg =>
        rw [if_pos hg] at hnext'
        rw [List.length_cons, List.range'_succ, List.map_cons, ← hnext', UInt64.ofNat_toNat]
        exact congrArg _ hrest
      · next hg =>
        rw [if_neg hg, Nat.add_zero] at hnext'
        rw [← hnext']
        exact hrest
    · rw [if_neg ht, if_neg fun hg => ht (Operation.concerns_of_grants hg)]
      exact ih hr' h0' (by omega)

end Run

/-- The renaming takes the handles of the client, one after the other, to those that it is given in
the run alone, and any other to one that it is not given there. -/
structure Renames (c : ClientId) (ts : List Timed) (ρ : TimerHandle → TimerHandle) : Prop where
  own : (empty.handed c ts).map ρ = empty.handed c (alone c ρ ts)
  others : ∀ h, h ∉ empty.handed c ts → ρ h ∉ empty.handed c (alone c ρ ts)

def Alike (ρ : TimerHandle → TimerHandle) (x y : TimerHandle) : Prop :=
  (x.number < y.number ↔ (ρ x).number < (ρ y).number) ∧
    (y.number < x.number ↔ (ρ y).number < (ρ x).number)

instance : Std.Symm (Alike ρ) := ⟨fun _ _ => And.symm⟩

theorem alike_self (x : TimerHandle) : Alike ρ x x :=
  ⟨iff_of_false (UInt64.lt_irrefl _) (UInt64.lt_irrefl _),
    iff_of_false (UInt64.lt_irrefl _) (UInt64.lt_irrefl _)⟩

section Whole

variable {ts : List Timed}

theorem lt_size (hts : starts ts < 2 ^ 64 - 1) :
    empty.nextHandle.toNat + starts ts < UInt64.size := by
  have h1 : empty.nextHandle.toNat = 1 := rfl
  have hsize : UInt64.size = 2 ^ 64 := rfl
  omega

theorem starts_alone_lt (hts : starts ts < 2 ^ 64 - 1) : starts (alone c ρ ts) < 2 ^ 64 - 1 :=
  Nat.lt_of_le_of_lt (starts_alone_le c ρ ts) hts

theorem handed_sorted_empty (hts : starts ts < 2 ^ 64 - 1) :
    (empty.handed c ts).Pairwise (·.number < ·.number) ∧ ∀ x ∈ empty.handed c ts, 1 ≤ x.number :=
  handed_sorted coherent_empty (by decide) (lt_size hts)

theorem nodup_handed (hts : starts ts < 2 ^ 64 - 1) : (empty.handed c ts).Nodup := by
  refine (handed_sorted_empty hts).1.imp ?_
  rintro x _ hlt rfl
  exact UInt64.lt_irrefl _ hlt

theorem handed_alone_empty (hts : starts ts < 2 ^ 64 - 1) :
    empty.handed c (alone c ρ ts) =
      (List.range' 1 (empty.handed c ts).length).map fun n => ⟨UInt64.ofNat n⟩ :=
  handed_alone coherent_empty (by decide) (lt_size hts)

theorem Renames.injective (h : Renames c ts ρ) (hts : starts ts < 2 ^ 64 - 1) :
    ∀ x ∈ empty.handed c ts, ∀ y, ρ x = ρ y → x = y := by
  intro x hx y hxy
  have hown := h.own
  have hmem : ρ x ∈ empty.handed c (alone c ρ ts) := hown ▸ List.mem_map_of_mem hx
  by_cases hy : y ∈ empty.handed c ts
  · have hnodup : ((empty.handed c ts).map ρ).Nodup := by
      rw [hown]
      exact nodup_handed (starts_alone_lt hts)
    exact List.inj_on_of_nodup_map hnodup hx hy hxy
  · rw [hxy] at hmem
    exact absurd hmem (h.others y hy)

theorem Renames.alike (h : Renames c ts ρ) (hts : starts ts < 2 ^ 64 - 1) :
    ∀ x ∈ empty.handed c ts, ∀ y ∈ empty.handed c ts, Alike ρ x y := by
  have hrenamed : (empty.handed c ts).Pairwise fun x y => (ρ x).number < (ρ y).number := by
    have hsorted : ((empty.handed c ts).map ρ).Pairwise (·.number < ·.number) := by
      rw [h.own]
      exact (handed_sorted_empty (starts_alone_lt hts)).1
    exact hsorted.of_map ρ fun _ _ hlt => hlt
  have halike : (empty.handed c ts).Pairwise (Alike ρ) := by
    refine ((handed_sorted_empty hts).1.and hrenamed).imp ?_
    rintro x y ⟨hlt, hlt'⟩
    exact ⟨iff_of_true hlt hlt', iff_of_false (UInt64.lt_asymm hlt) (UInt64.lt_asymm hlt')⟩
  intro x hx y hy
  exact List.Pairwise.forall_of_forall (fun x _ => alike_self x) halike hx hy

theorem exists_renames (c : ClientId) (hts : starts ts < 2 ^ 64 - 1) : ∃ ρ, Renames c ts ρ := by
  refine ⟨fun h => ⟨UInt64.ofNat
    (if h ∈ empty.handed c ts then 1 + (empty.handed c ts).idxOf h else 0)⟩, ?_, fun h hh => ?_⟩
  · rw [handed_alone_empty hts]
    apply List.ext_getElem
    · simp
    · intro i hi _
      rw [List.length_map] at hi
      simp [(nodup_handed hts).idxOf_getElem i hi]
  · intro hm
    have hpos := (handed_sorted_empty (starts_alone_lt hts)).2 _ hm
    rw [if_neg hh] at hpos
    exact absurd hpos (by decide)

end Whole

/-- What a client sees of a run it sees of the run without the operations of the other clients, with
its handles renamed in their order; and there is such a renaming. -/
theorem view_eq_alone (c : ClientId) (ts : List Timed) (hts : starts ts < 2 ^ 64 - 1) :
    (∃ ρ, Renames c ts ρ) ∧ ∀ ρ, Renames c ts ρ →
      (empty.view c ts).map (Outcome.rename ρ) = empty.view c (alone c ρ ts) ∧
      ∀ x ∈ empty.handed c ts, ∀ y ∈ empty.handed c ts,
        (x.number < y.number ↔ (ρ x).number < (ρ y).number) := by
  refine ⟨exists_renames c hts, fun ρ h => ⟨?_, fun x hx y hy => (h.alike hts x hx y hy).1⟩⟩
  have hapart : Apart c ρ empty empty := ⟨rfl, rfl⟩
  exact hapart.run coherent_empty coherent_empty (by decide) (by decide) (lt_size hts) (lt_size hts)
    (h.injective hts) (fun k t hk => nomatch hk) (List.Subset.refl _) h.own

theorem view_eq_alone_interleaved :
    let ρ (h : TimerHandle) : TimerHandle :=
      if h = ⟨1⟩ then ⟨1⟩ else if h = ⟨3⟩ then ⟨2⟩ else if h = ⟨5⟩ then ⟨3⟩ else ⟨0⟩
    starts interleaved < 2 ^ 64 - 1 ∧ Renames ⟨1⟩ interleaved ρ ∧
      (empty.view ⟨1⟩ interleaved).map (Outcome.rename ρ) =
        empty.view ⟨1⟩ (alone ⟨1⟩ ρ interleaved) ∧
      empty.view ⟨1⟩ (alone ⟨1⟩ ρ interleaved) =
        [.started ⟨1⟩, .started ⟨2⟩, .released none,
          .yielded [⟨.nil, .epoch, 1000, some (.bool true), 4⟩], .started ⟨3⟩] := by
  intro ρ
  have hstarts : starts interleaved < 2 ^ 64 - 1 := by decide
  have hhanded : empty.handed ⟨1⟩ interleaved = [⟨1⟩, ⟨3⟩, ⟨5⟩] := by decide
  have halone : empty.handed ⟨1⟩ (alone ⟨1⟩ ρ interleaved) = [⟨1⟩, ⟨2⟩, ⟨3⟩] := by decide
  have hρ : Renames ⟨1⟩ interleaved ρ := by
    refine ⟨by rw [hhanded, halone]; rfl, fun h hh => ?_⟩
    rw [hhanded] at hh
    rw [halone]
    simp only [List.mem_cons, List.not_mem_nil, or_false, not_or] at hh
    obtain ⟨h1, h3, h5⟩ := hh
    simp [ρ, h1, h3, h5]
  exact ⟨hstarts, hρ, ((view_eq_alone ⟨1⟩ interleaved hstarts).2 ρ hρ).1, by decide⟩

end Registry

end Telemetry.Timer

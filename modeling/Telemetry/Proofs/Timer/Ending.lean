import Telemetry.Proofs.Timer.Coherence

namespace Telemetry.Timer.Registry

open Calendar Tally

variable {r : Registry}

section Stop

variable {client : ClientId} {handle : TimerHandle} {now : Int64} {today : Date}
  {i : Option Increment} {r' : Registry}

def loosen (r : Registry) (key : Key) (t : Running) (handle : TimerHandle) : Registry :=
  { r with
    handles := r.handles.erase handle
    timers := r.timers.insert key { t with handles := t.handles.filter (· ≠ handle) } }

theorem stop_eq_none (hr : r.Linked) (h : r.stop client handle now today = none) (k : Key)
    (t : Running) (hk : r.timers.get? k = some t) (hc : k.client = client) :
    handle ∉ t.handles := by
  intro hm
  have hh := (hr.handle handle k).2 ⟨t, hk, hm⟩
  rw [stop] at h
  simp only [hh, hc, ne_eq, not_true_eq_false, if_false, hk] at h
  split at h <;> cases h

/-- What a release can do: the timer ends with the handle, or loses it. -/
theorem stop_cases (h : r.stop client handle now today = some (i, r')) :
    ∃ k t, r.handles.get? handle = some k ∧ k.client = client ∧ r.timers.get? k = some t ∧
      (t.handles.filter (· ≠ handle) = [] ∧ i = some (t.increment k now today) ∧
          r' = remove { r with handles := r.handles.erase handle } k { t with handles := [] } ∨
        t.handles.filter (· ≠ handle) ≠ [] ∧ i = none ∧ r' = r.loosen k t handle) := by
  rw [stop] at h
  split at h
  · cases h
  · next k hk =>
    split at h
    · cases h
    · next hc =>
      split at h
      · cases h
      · next t ht =>
        refine ⟨k, t, hk, Decidable.not_not.1 hc, ht, ?_⟩
        dsimp only at h
        split at h
        · next he =>
          rw [List.isEmpty_iff] at he
          rw [he] at h
          cases h
          exact .inl ⟨he, rfl, rfl⟩
        · next he =>
          cases h
          exact .inr ⟨fun hnil => he (List.isEmpty_iff.2 hnil), rfl, rfl⟩

theorem stop_eq_some (hr : r.Linked) (h : r.stop client handle now today = some (i, r')) :
    ∃ k t, r.timers.get? k = some t ∧ k.client = client ∧ handle ∈ t.handles ∧
      (t.handles = [handle] ∧ i = some (t.increment k now today) ∧ r' = r.remove k t ∨
        t.handles.filter (· ≠ handle) ≠ [] ∧ i = none ∧ r' = r.loosen k t handle) := by
  obtain ⟨k, t, hk, hc, ht, hcases⟩ := stop_cases h
  obtain ⟨t', ht', hm⟩ := (hr.handle handle k).1 hk
  rw [ht] at ht'
  cases ht'
  refine ⟨k, t, ht, hc, hm, ?_⟩
  rcases hcases with ⟨he, hi, hr'⟩ | hleft
  · have hall : ∀ x ∈ t.handles, x = handle := by
      intro x hx
      rw [List.filter_eq_nil_iff] at he
      simpa using he x hx
    have hone : t.handles = [handle] := by
      have hd := hr.distinct k t ht
      cases hl : t.handles with
      | nil => exact absurd hl (hr.held k t ht)
      | cons a l =>
        rw [hl] at hall hd
        have ha : a = handle := hall a (by simp)
        have hn : l = [] := by
          rw [List.eq_nil_iff_forall_not_mem]
          intro x hx
          have hx' : x = handle := hall x (by simp [hx])
          rw [hx', ← ha] at hx
          exact (List.nodup_cons.1 hd).1 hx
        rw [ha, hn]
    refine .inl ⟨hone, hi, ?_⟩
    simp [hr', remove, hone]
  · exact .inr hleft

theorem linked_loosen {k : Key} {t : Running} (hr : r.Linked) (hk : r.timers.get? k = some t)
    (hm : handle ∈ t.handles) (hl : t.handles.filter (· ≠ handle) ≠ []) :
    (r.loosen k t handle).Linked where
  keys := Index.nodup_keys_alter _ _ _ hr.keys
  handle := by
    intro h j
    simp only [loosen, Index.get?_insert, Index.get?_erase]
    by_cases hh : h = handle
    · subst hh
      rw [if_pos rfl]
      constructor
      · intro hn
        cases hn
      · rintro ⟨t', hj, hm'⟩
        split at hj
        · cases hj
          simp at hm'
        · next hne => exact absurd (hr.unique hj hm' hk hm) hne
    · rw [if_neg hh, hr.handle]
      by_cases hj : j = k
      · subst hj
        simp [hk, hh]
      · simp [hj]
  held := by
    intro j t' hj
    simp only [loosen, Index.get?_insert] at hj
    split at hj
    · cases hj
      exact hl
    · exact hr.held j t' hj
  distinct := by
    intro j t' hj
    simp only [loosen, Index.get?_insert] at hj
    split at hj
    · cases hj
      exact (hr.distinct k t hk).filter _
    · exact hr.distinct j t' hj
  given := by
    intro h j hj
    simp only [loosen, Index.get?_erase] at hj
    split at hj
    · cases hj
    · exact hr.given h j hj

theorem listed_loosen {k : Key} {t : Running} (hr : r.Listed) (hk : r.timers.get? k = some t) :
    (r.loosen k t handle).Listed where
  owner := by
    intro c j
    have ho : (r.loosen k t handle).owned c = r.owned c := rfl
    rw [ho, hr.owner]
    simp only [loosen, Index.get?_insert]
    by_cases hj : j = k
    · subst hj
      simp [hk]
    · simp [hj]
  owns := hr.owns

theorem coherent_stop (hr : r.Coherent) (h : r.stop client handle now today = some (i, r')) :
    r'.Coherent ∧ r'.nextHandle = r.nextHandle := by
  obtain ⟨k, t, hk, -, hm, ⟨-, -, rfl⟩ | ⟨hl, -, rfl⟩⟩ := stop_eq_some hr.toLinked h
  · exact ⟨coherent_remove hr hk, nextHandle_remove⟩
  · exact ⟨⟨linked_loosen hr.toLinked hk hm hl, listed_loosen hr.toListed hk⟩, rfl⟩

end Stop

section Disconnect

variable (now : Int64) (today : Date)

theorem linked_endAll (keys : List Key) (hr : r.Linked) :
    (r.endAll now today keys).2.Linked ∧
      (r.endAll now today keys).2.nextHandle = r.nextHandle := by
  induction keys generalizing r with
  | nil => exact ⟨hr, rfl⟩
  | cons k keys ih =>
    rw [endAll]
    split
    · exact ih hr
    · next t ht =>
      obtain ⟨hl, hn⟩ := ih (linked_remove hr ht)
      exact ⟨hl, hn.trans nextHandle_remove⟩

theorem timers_endAll (keys : List Key) :
    (r.endAll now today keys).2.timers.entries = r.timers.entries.filter (·.1 ∉ keys) := by
  induction keys generalizing r with
  | nil => exact (List.filter_eq_self.2 fun e _ => by simp).symm
  | cons k keys ih =>
    rw [endAll]
    split
    · next hn =>
      rw [ih]
      apply List.filter_congr
      intro e he
      simp [Index.ne_of_get?_eq_none hn e he]
    · dsimp only
      rw [ih, timers_remove, Index.erase, List.filter_filter]
      apply List.filter_congr
      intro e _
      by_cases hk : e.1 = k <;> simp [hk]

theorem clients_endAll {client : ClientId} (hn : r.clients.get? client = none) {keys : List Key}
    (hk : ∀ k ∈ keys, k.client = client) :
    (r.endAll now today keys).2.clients = r.clients := by
  induction keys generalizing r with
  | nil => rfl
  | cons k keys ih =>
    have hks : ∀ j ∈ keys, j.client = client := fun j hj => hk j (by simp [hj])
    rw [endAll]
    split
    · exact ih hn hks
    · next t _ =>
      have hd : (r.remove k t).clients = r.clients := by
        rw [← hk k (by simp)] at hn
        rw [remove, disown]
        simp only [hn]
      have hd' := ih (r := r.remove k t) (by rw [hd]; exact hn) hks
      exact hd'.trans hd

variable (client : ClientId)

theorem timers_disconnect (hr : r.Listed) :
    (r.disconnect client now today).2.timers.entries =
      r.timers.entries.filter (·.1.client ≠ client) := by
  rw [disconnect]
  rw [timers_endAll]
  apply List.filter_congr
  intro e he
  have hs : (r.timers.get? e.1).isSome := (r.timers.get?_isSome_iff e.1).2 (List.mem_map_of_mem he)
  have ho := hr.owner client e.1
  rw [and_iff_left hs] at ho
  change decide (e.1 ∉ r.owned client) = decide (e.1.client ≠ client)
  exact decide_eq_decide.2 (not_congr ho)

theorem clients_disconnect (hr : r.Listed) :
    (r.disconnect client now today).2.clients = r.clients.erase client := by
  have hnone : (r.clients.erase client).get? client = none := by
    rw [Index.get?_erase, if_pos rfl]
  exact clients_endAll now today hnone fun k hk => ((hr.owner client k).1 hk).1

theorem get?_disconnect (hr : r.Listed) (client : ClientId) (now : Int64) (today : Date) (k : Key) :
    (r.disconnect client now today).2.timers.get? k =
      if k.client = client then none else r.timers.get? k := by
  rw [Index.get?, timers_disconnect now today client hr,
    Index.find_filter fun k : Key => decide (k.client ≠ client)]
  by_cases hk : k.client = client <;> simp [hk, Index.get?]

theorem listed_disconnect (hr : r.Listed) : (r.disconnect client now today).2.Listed where
  owner := by
    intro c k
    rw [get?_disconnect hr, owned, clients_disconnect now today client hr, Index.get?_erase]
    by_cases hc : c = client
    · subst hc
      by_cases hk : k.client = c <;> simp [hk]
    · rw [if_neg hc]
      change k ∈ r.owned c ↔ _
      rw [hr.owner]
      constructor
      · rintro ⟨rfl, hs⟩
        rw [if_neg hc]
        exact ⟨rfl, hs⟩
      · rintro ⟨rfl, hs⟩
        rw [if_neg hc] at hs
        exact ⟨rfl, hs⟩
  owns := by
    intro c
    rw [clients_disconnect now today client hr, Index.get?_erase]
    split
    · intro hn
      cases hn
    · exact hr.owns c

theorem coherent_disconnect (hr : r.Coherent) :
    (r.disconnect client now today).2.Coherent ∧
      (r.disconnect client now today).2.nextHandle = r.nextHandle := by
  have hl : ({ r with clients := r.clients.erase client } : Registry).Linked :=
    ⟨hr.keys, hr.handle, hr.held, hr.distinct, hr.given⟩
  obtain ⟨hlinked, hnext⟩ := linked_endAll now today (r.owned client) hl
  exact ⟨⟨hlinked, listed_disconnect now today client hr.toListed⟩, hnext⟩

end Disconnect

theorem get?_split (r : Registry) (now : Int64) (day : Date) (k : Key) :
    (r.split now day).2.timers.get? k = (r.timers.get? k).map fun t => { t with started := now } :=
  Index.get?_mapValues _ _ k

theorem listed_split (hr : r.Listed) (now : Int64) (date : Date) : (r.split now date).2.Listed := by
  refine ⟨?_, hr.owns⟩
  intro c k
  rw [get?_split]
  change k ∈ r.owned c ↔ _
  rw [hr.owner]
  simp

theorem coherent_split (hr : r.Coherent) (now : Int64) (date : Date) :
    (r.split now date).2.Coherent := by
  have hg := get?_split r now date
  refine ⟨⟨?_, ?_, ?_, ?_, hr.given⟩, listed_split hr.toListed now date⟩
  · rw [split, Index.keys_mapValues]
    exact hr.keys
  · intro h k
    rw [hg]
    change r.handles.get? h = some k ↔ _
    rw [hr.handle]
    cases r.timers.get? k <;> simp
  · intro k t' ht'
    rw [hg] at ht'
    cases hk : r.timers.get? k with
    | none => simp [hk] at ht'
    | some t =>
      rw [hk] at ht'
      cases ht'
      exact hr.held k t hk
  · intro k t' ht'
    rw [hg] at ht'
    cases hk : r.timers.get? k with
    | none => simp [hk] at ht'
    | some t =>
      rw [hk] at ht'
      cases ht'
      exact hr.distinct k t hk

section Accrual

variable {r' : Registry}

def Accrued (r : Registry) (now : Int64) (i : Increment) : Prop :=
  ∃ e ∈ r.timers.entries, ∃ day, i = e.2.increment e.1 now day

theorem accrued_increments {now : Int64} {day : Date} {i : Increment}
    (h : i ∈ r.increments now day) : r.Accrued now i := by
  obtain ⟨e, he, rfl⟩ := List.mem_map.1 h
  exact ⟨e, he, day, rfl⟩

theorem keys_remove_subset (r : Registry) (k : Key) (t : Running) :
    (r.remove k t).timers.keys ⊆ r.timers.keys := by
  rw [timers_remove, Index.keys_erase]
  exact List.filter_sublist.subset

theorem running_of_stop {client : ClientId} {handle : TimerHandle} {now : Int64} {today : Date}
    {i : Option Increment} (h : r.stop client handle now today = some (i, r')) :
    (∃ k ∈ r.timers.keys, r.handles.get? handle = some k) ∧ r'.timers.keys ⊆ r.timers.keys := by
  obtain ⟨k, t, hh, -, ht, hcases⟩ := stop_cases h
  have hk : k ∈ r.timers.keys := by
    rw [← Index.get?_isSome_iff, ht]
    rfl
  refine ⟨⟨k, hk, hh⟩, ?_⟩
  rcases hcases with ⟨-, -, rfl⟩ | ⟨-, -, rfl⟩
  · exact keys_remove_subset { r with handles := r.handles.erase handle } k _
  · change (r.timers.insert k _).keys ⊆ _
    rw [Index.insert, Index.keys_alter, if_pos hk]
    exact List.Subset.refl _

theorem accrued_endAll (now : Int64) (today : Date) (keys : List Key) {i : Increment}
    (h : i ∈ (r.endAll now today keys).1) : r.Accrued now i := by
  induction keys generalizing r with
  | nil => cases h
  | cons k keys ih =>
    rw [endAll] at h
    split at h
    · exact ih h
    · next t ht =>
      rcases List.mem_cons.1 h with rfl | h
      · exact ⟨(k, t), Index.mem_of_get? ht, today, rfl⟩
      · obtain ⟨e, he, day, hi⟩ := ih h
        rw [timers_remove] at he
        exact ⟨e, (List.mem_filter.1 he).1, day, hi⟩

theorem accrued_disconnect {client : ClientId} {now : Int64} {today : Date} {i : Increment}
    (h : i ∈ (r.disconnect client now today).1) : r.Accrued now i :=
  accrued_endAll (r := { r with clients := r.clients.erase client }) now today _ h

theorem keys_endAll_subset (now : Int64) (today : Date) (keys : List Key) :
    (r.endAll now today keys).2.timers.keys ⊆ r.timers.keys := by
  rw [Index.keys, timers_endAll]
  exact List.map_subset _ (List.filter_sublist.subset)

end Accrual

end Telemetry.Timer.Registry

import Telemetry.Timer.Registry

namespace Telemetry.Timer.Registry

open Calendar Tally

variable {r : Registry}

def owned (r : Registry) (client : ClientId) : List Key := (r.clients.get? client).getD []

/-- Timers and handles agree. -/
structure Linked (r : Registry) : Prop where
  keys : r.timers.keys.Nodup
  handle : ∀ h k, r.handles.get? h = some k ↔ ∃ t, r.timers.get? k = some t ∧ h ∈ t.handles
  held : ∀ k t, r.timers.get? k = some t → t.handles ≠ []
  distinct : ∀ k t, r.timers.get? k = some t → t.handles.Nodup
  given : ∀ h k, r.handles.get? h = some k →
    0 < h.number.toNat ∧ h.number.toNat < r.nextHandle.toNat

/-- The lists of clients agree with the timers, and none is empty. -/
structure Listed (r : Registry) : Prop where
  owner : ∀ c k, k ∈ r.owned c ↔ k.client = c ∧ (r.timers.get? k).isSome
  owns : ∀ c, r.clients.get? c ≠ some []

structure Coherent (r : Registry) : Prop extends Linked r, Listed r

theorem coherent_cleared (r : Registry) : r.cleared.Coherent := by
  refine ⟨⟨List.nodup_nil, ?_, ?_, ?_, ?_⟩, ⟨?_, ?_⟩⟩
  · simp [cleared, empty]
  · simp [cleared, empty]
  · simp [cleared, empty]
  · simp [cleared, empty]
  · simp [cleared, empty, owned]
  · simp [cleared, empty]

theorem coherent_empty : empty.Coherent := coherent_cleared empty

theorem Linked.unique (hr : r.Linked) {h : TimerHandle} {k k' : Key} {t t' : Running}
    (hk : r.timers.get? k = some t) (ht : h ∈ t.handles) (hk' : r.timers.get? k' = some t')
    (ht' : h ∈ t'.handles) : k = k' := by
  have h₁ := (hr.handle h k).2 ⟨t, hk, ht⟩
  have h₂ := (hr.handle h k').2 ⟨t', hk', ht'⟩
  rw [h₁] at h₂
  exact Option.some.inj h₂

theorem Linked.fresh (hr : r.Linked) {k : Key} {t : Running} (hk : r.timers.get? k = some t) :
    ⟨r.nextHandle⟩ ∉ t.handles := by
  intro hm
  have hg := hr.given _ k ((hr.handle _ k).2 ⟨t, hk, hm⟩)
  exact Nat.lt_irrefl _ hg.2

section Start

variable (s : Start) (now : Int64)

theorem timers_start (k : Key) : (r.start s now).2.timers.get? k =
    if k = s.key then
      some (match r.timers.get? s.key with
        | some t => { t with handles := t.handles ++ [⟨r.nextHandle⟩] }
        | none => ⟨s.user, s.payload, now, [⟨r.nextHandle⟩]⟩)
    else r.timers.get? k := r.timers.get?_alter s.key k _

theorem handles_start (h : TimerHandle) : (r.start s now).2.handles.get? h =
    if h = ⟨r.nextHandle⟩ then some s.key else r.handles.get? h := r.handles.get?_insert _ h _

theorem owned_start (c : ClientId) (k : Key) : k ∈ (r.start s now).2.owned c ↔
    k ∈ r.owned c ∨ c = s.client ∧ k = s.key := by
  unfold owned
  rw [start, Index.get?_alter]
  by_cases hc : c = s.client
  · subst hc
    rw [if_pos rfl]
    dsimp only [Option.getD_some]
    split
    · next hm =>
      refine ⟨.inl, ?_⟩
      rintro (h | ⟨-, rfl⟩)
      · exact h
      · exact hm
    · simp
  · simp [hc]

theorem nextHandle_start (hn : r.nextHandle.toNat + 1 < UInt64.size) :
    (r.start s now).2.nextHandle.toNat = r.nextHandle.toNat + 1 := by
  have h1 : (1 : UInt64).toNat = 1 := rfl
  change (r.nextHandle + 1).toNat = _
  rw [UInt64.toNat_add, h1]
  exact Nat.mod_eq_of_lt hn

theorem mem_handles_start {h : TimerHandle} {k : Key} :
    (∃ t, (r.start s now).2.timers.get? k = some t ∧ h ∈ t.handles) ↔
      (∃ t, r.timers.get? k = some t ∧ h ∈ t.handles) ∨ h = ⟨r.nextHandle⟩ ∧ k = s.key := by
  rw [timers_start]
  by_cases hk : k = s.key
  · subst hk
    rw [if_pos rfl]
    cases r.timers.get? s.key with
    | none => simp
    | some t => simp
  · simp [hk]

theorem linked_start (hr : r.Linked) (h0 : 0 < r.nextHandle.toNat)
    (hn : r.nextHandle.toNat + 1 < UInt64.size) : (r.start s now).2.Linked where
  keys := Index.nodup_keys_alter _ _ _ hr.keys
  handle := by
    intro h k
    rw [mem_handles_start, handles_start]
    by_cases hh : h = ⟨r.nextHandle⟩
    · subst hh
      rw [if_pos rfl]
      constructor
      · intro hk
        cases hk
        exact .inr ⟨rfl, rfl⟩
      · rintro (⟨t, hk, hm⟩ | ⟨-, rfl⟩)
        · exact absurd hm (hr.fresh hk)
        · rfl
    · simp [hh, hr.handle]
  held := by
    intro k t ht
    rw [timers_start] at ht
    split at ht
    · cases ht
      cases r.timers.get? s.key <;> simp
    · exact hr.held k t ht
  distinct := by
    intro k t ht
    rw [timers_start] at ht
    split at ht
    · cases ht
      cases hk : r.timers.get? s.key with
      | none => simp
      | some t =>
        rw [List.nodup_append]
        refine ⟨hr.distinct _ t hk, by simp, ?_⟩
        rintro a ha b hb rfl
        rw [List.mem_singleton] at hb
        exact hr.fresh hk (hb ▸ ha)
    · exact hr.distinct k t ht
  given := by
    intro h k hk
    rw [nextHandle_start s now hn]
    rw [handles_start] at hk
    split at hk
    · next hh =>
      subst hh
      exact ⟨h0, Nat.lt_succ_self _⟩
    · have hg := hr.given h k hk
      exact ⟨hg.1, Nat.lt_succ_of_lt hg.2⟩

theorem listed_start (hr : r.Listed) : (r.start s now).2.Listed where
  owner := by
    intro c k
    rw [owned_start, hr.owner, timers_start]
    by_cases hk : k = s.key
    · subst hk
      rw [if_pos rfl]
      constructor
      · rintro (⟨hc, -⟩ | ⟨rfl, -⟩)
        · exact ⟨hc, rfl⟩
        · exact ⟨rfl, rfl⟩
      · rintro ⟨rfl, -⟩
        exact .inr ⟨rfl, rfl⟩
    · simp [hk]
  owns := by
    intro c hc
    have hm : s.key ∈ (r.start s now).2.owned s.client :=
      (owned_start s now s.client s.key).2 (.inr ⟨rfl, rfl⟩)
    by_cases hcs : c = s.client
    · subst hcs
      rw [owned, hc] at hm
      cases hm
    · rw [start, Index.get?_alter, if_neg hcs] at hc
      exact hr.owns c hc

theorem coherent_start (hr : r.Coherent) (h0 : 0 < r.nextHandle.toNat)
    (hn : r.nextHandle.toNat + 1 < UInt64.size) : (r.start s now).2.Coherent :=
  ⟨linked_start s now hr.toLinked h0 hn, listed_start s now hr.toListed⟩

end Start

section Remove

variable {k : Key} {t : Running}

theorem fields_disown (r : Registry) (k : Key) : (r.disown k).nextHandle = r.nextHandle ∧
    (r.disown k).timers = r.timers ∧ (r.disown k).handles = r.handles := by
  rw [disown]
  split
  · exact ⟨rfl, rfl, rfl⟩
  · dsimp only
    split <;> exact ⟨rfl, rfl, rfl⟩

theorem clients_disown (r : Registry) (k : Key) (c : ClientId) :
    (r.disown k).clients.get? c =
      if c = k.client then
        (r.clients.get? c).bind fun owned =>
          if (owned.filter (· ≠ k)).isEmpty then none else some (owned.filter (· ≠ k))
      else r.clients.get? c := by
  rw [disown]
  split
  · next hn =>
    split
    · next hc => rw [hc, hn, Option.bind_none]
    · rfl
  · next keys hs =>
    dsimp only
    split
    · next he =>
      rw [Index.get?_erase]
      split
      · next hc => rw [hc, hs, Option.bind_some, if_pos he]
      · rfl
    · next he =>
      rw [Index.get?_insert]
      split
      · next hc => rw [hc, hs, Option.bind_some, if_neg he]
      · rfl

theorem nextHandle_remove : (r.remove k t).nextHandle = r.nextHandle := (fields_disown _ k).1

theorem timers_remove : (r.remove k t).timers = r.timers.erase k := (fields_disown _ k).2.1

theorem handles_remove (h : TimerHandle) : (r.remove k t).handles.get? h =
    if h ∈ t.handles then none else r.handles.get? h := by
  have hd := (fields_disown { r with
    timers := r.timers.erase k, handles := t.handles.foldl Index.erase r.handles } k).2.2
  rw [remove, hd]
  exact Index.get?_foldl_erase r.handles t.handles h

theorem owned_remove (c : ClientId) (j : Key) :
    j ∈ (r.remove k t).owned c ↔ j ∈ r.owned c ∧ (c = k.client → j ≠ k) := by
  unfold owned remove
  rw [clients_disown]
  by_cases hc : c = k.client
  · rw [if_pos hc]
    cases hk : r.clients.get? c with
    | none => simp
    | some keys =>
      simp only [Option.bind_some, hc, forall_const, Option.getD_some]
      split
      · next he =>
        rw [List.isEmpty_iff, List.filter_eq_nil_iff] at he
        constructor
        · intro hj
          cases hj
        · rintro ⟨hj, hne⟩
          exact absurd (decide_eq_true (p := j ≠ k) hne) (he j hj)
      · simp
  · simp [hc]

theorem linked_remove (hr : r.Linked) (ht : r.timers.get? k = some t) : (r.remove k t).Linked where
  keys := by
    rw [timers_remove, Index.keys_erase]
    exact hr.keys.filter _
  handle := by
    intro h j
    rw [handles_remove, timers_remove]
    simp only [Index.get?_erase]
    by_cases hm : h ∈ t.handles
    · rw [if_pos hm]
      constructor
      · intro hn
        cases hn
      · rintro ⟨t', hj, hm'⟩
        split at hj
        · cases hj
        · next hne => exact absurd (hr.unique hj hm' ht hm) hne
    · rw [if_neg hm, hr.handle]
      constructor
      · rintro ⟨t', hj, hm'⟩
        have hne : j ≠ k := by
          rintro rfl
          rw [ht] at hj
          cases hj
          exact hm hm'
        exact ⟨t', by rw [if_neg hne]; exact hj, hm'⟩
      · rintro ⟨t', hj, hm'⟩
        split at hj
        · cases hj
        · exact ⟨t', hj, hm'⟩
  held := by
    intro j t' hj
    rw [timers_remove, Index.get?_erase] at hj
    split at hj
    · cases hj
    · exact hr.held j t' hj
  distinct := by
    intro j t' hj
    rw [timers_remove, Index.get?_erase] at hj
    split at hj
    · cases hj
    · exact hr.distinct j t' hj
  given := by
    intro h j hj
    rw [handles_remove] at hj
    rw [nextHandle_remove]
    split at hj
    · cases hj
    · exact hr.given h j hj

theorem listed_remove (hr : r.Listed) : (r.remove k t).Listed where
  owner := by
    intro c j
    rw [owned_remove, hr.owner, timers_remove, Index.get?_erase]
    by_cases hj : j = k
    · subst hj
      rw [if_pos rfl]
      constructor
      · rintro ⟨⟨hc, -⟩, hne⟩
        exact absurd rfl (hne hc.symm)
      · rintro ⟨-, hn⟩
        cases hn
    · simp [hj]
  owns := by
    intro c hc
    rw [remove] at hc
    rw [clients_disown] at hc
    split at hc
    · cases hk : r.clients.get? c with
      | none => simp [hk] at hc
      | some keys =>
        simp only [hk, Option.bind_some] at hc
        split at hc
        · cases hc
        · next he => exact he (by simpa using hc)
    · exact hr.owns c hc

theorem coherent_remove (hr : r.Coherent) (ht : r.timers.get? k = some t) :
    (r.remove k t).Coherent := ⟨linked_remove hr.toLinked ht, listed_remove hr.toListed⟩

end Remove

end Telemetry.Timer.Registry

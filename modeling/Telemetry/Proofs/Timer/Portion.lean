import Telemetry.Proofs.Timer.Lifetime

namespace Telemetry.Timer

open Calendar Tally

/-- The operations of a client, and those that no client asks for. -/
def Operation.concerns (c : ClientId) : Operation → Bool
  | start s => s.client = c
  | stop client _ => client = c
  | disconnect client => client = c
  | drain | purge | split _ => true

def Operation.grants (c : ClientId) : Operation → Bool
  | start s => s.client = c
  | _ => false

def Operation.rename (ρ : TimerHandle → TimerHandle) : Operation → Operation
  | stop client handle => stop client (ρ handle)
  | operation => operation

def Timed.rename (ρ : TimerHandle → TimerHandle) (t : Timed) : Timed :=
  { t with operation := t.operation.rename ρ }

def Outcome.rename (ρ : TimerHandle → TimerHandle) : Outcome → Outcome
  | started handle => started (ρ handle)
  | unknown handle => unknown (ρ handle)
  | outcome => outcome

def Running.rename (ρ : TimerHandle → TimerHandle) (t : Running) : Running :=
  { t with handles := t.handles.map ρ }

section Rename

variable {c : ClientId} {ρ : TimerHandle → TimerHandle}

theorem Timed.grants_rename (t : Timed) :
    (t.rename ρ).operation.grants c = t.operation.grants c := by
  rw [Timed.rename]
  cases t.operation <;> rfl

theorem Timed.starts_rename (t : Timed) : (t.rename ρ).operation.starts = t.operation.starts := by
  rw [Timed.rename]
  cases t.operation <;> rfl

theorem Operation.concerns_of_grants {o : Operation} (h : o.grants c) : o.concerns c := by
  cases o with
  | start s => exact h
  | _ => cases h

theorem Operation.starts_of_concerns {o : Operation} (h : o.concerns c) :
    o.starts = if o.grants c then 1 else 0 := by
  cases o with
  | start s => exact (if_pos h).symm
  | _ => rfl

end Rename

namespace Registry

/-- Of what the timers yield, in their order, the part of a client's timers. -/
def share (r : Registry) (c : ClientId) (is : List Increment) : List Increment :=
  ((r.timers.keys.zip is).filter (·.1.client = c)).map Prod.snd

/-- What an operation comes to for a client: the outcome of its own operations, and its share of a
drain or a split. -/
def seen (r : Registry) (c : ClientId) (t : Timed) : Option Outcome :=
  match t.operation, (r.perform t).1 with
  | .start s, outcome => if s.client = c then some outcome else none
  | .stop client _, outcome => if client = c then some outcome else none
  | .disconnect client, outcome => if client = c then some outcome else none
  | .drain, .yielded is => some (.yielded (r.share c is))
  | .split _, .yielded is => some (.yielded (r.share c is))
  | _, _ => none

variable {c : ClientId} {ρ : TimerHandle → TimerHandle} {H : List TimerHandle} {r r' : Registry}

theorem share_increments (r : Registry) (c : ClientId) (now : Int64) (day : Date) :
    r.share c (r.increments now day) =
      (r.timers.entries.filter (·.1.client = c)).map fun e => e.2.increment e.1 now day := by
  rw [share, increments, Index.keys, List.zip_map', List.filter_map, List.map_map]
  rfl

def portion (c : ClientId) (ρ : TimerHandle → TimerHandle) (x : Index Key Running) :
    Index Key Running :=
  ⟨(x.entries.filter (·.1.client = c)).map fun e => (e.1, e.2.rename ρ)⟩

theorem get?_portion (x : Index Key Running) (k : Key) : (portion c ρ x).get? k =
    if k.client = c then (x.get? k).map (·.rename ρ) else none := by
  have hmap := Index.find_mapValues (fun (_ : Key) (t : Running) => t.rename ρ) k
    (x.entries.filter (·.1.client = c))
  rw [Index.get?, portion, hmap, Index.find_filter fun k : Key => decide (k.client = c)]
  by_cases hk : k.client = c <;> simp [hk, Index.get?]

theorem portion_erase (x : Index Key Running) (k : Key) :
    portion c ρ (x.erase k) = (portion c ρ x).erase k := by
  simp only [portion, Index.erase, List.filter_map, List.filter_filter, Function.comp_def,
    Bool.and_comm]

theorem portion_alter {k : Key} (hk : k.client = c) {f f' : Option Running → Running}
    (hf : ∀ o, f' (o.map (·.rename ρ)) = (f o).rename ρ) (x : Index Key Running) :
    portion c ρ (x.alter k f) = (portion c ρ x).alter k f' := by
  have hfilter := Index.filter_change (p := fun k : Key => decide (k.client = c))
    (decide_eq_true hk) f x.entries
  rw [portion, Index.alter, hfilter, Index.map_change hf]
  rfl

/-- The second registry runs just the client's timers of the first, with renamed handles. -/
structure Apart (c : ClientId) (ρ : TimerHandle → TimerHandle) (r r' : Registry) : Prop where
  timers : r'.timers = portion c ρ r.timers
  owned : r'.clients.get? c = r.clients.get? c

def Among (H : List TimerHandle) (c : ClientId) (r : Registry) : Prop :=
  ∀ k t, r.timers.get? k = some t → k.client = c → ∀ h ∈ t.handles, h ∈ H

section Others

structure Untouched (c : ClientId) (r r₁ : Registry) : Prop where
  timers : r₁.timers.entries.filter (·.1.client = c) = r.timers.entries.filter (·.1.client = c)
  owned : r₁.clients.get? c = r.clients.get? c

theorem Apart.of_untouched {r₁ : Registry} (h : Apart c ρ r r') (hu : Untouched c r r₁) :
    Apart c ρ r₁ r' := ⟨by rw [h.timers, portion, portion, hu.timers], h.owned.trans hu.owned.symm⟩

theorem filter_erase_other {k : Key} (hk : k.client ≠ c) (x : Index Key Running) :
    (x.erase k).entries.filter (·.1.client = c) = x.entries.filter (·.1.client = c) := by
  rw [Index.erase, List.filter_filter]
  apply List.filter_congr
  intro e _
  by_cases he : e.1 = k
  · simp [he, hk]
  · simp [he]

theorem clients_remove (r : Registry) (k : Key) (t : Running) (c : ClientId) :
    (r.remove k t).clients.get? c =
      if c = k.client then
        (r.clients.get? c).bind fun owned =>
          if (owned.filter (· ≠ k)).isEmpty then none else some (owned.filter (· ≠ k))
      else r.clients.get? c := clients_disown _ k c

theorem untouched_start {s : Start} (hs : s.client ≠ c) (now : Int64) :
    Untouched c r (r.start s now).2 where
  timers := Index.filter_change_of_not (p := fun k : Key => decide (k.client = c))
    (decide_eq_false hs) _ _
  owned := Index.get?_alter_ne _ (Ne.symm hs) _

theorem untouched_stop (hr : r.Linked) {client : ClientId} (hc : client ≠ c) {handle : TimerHandle}
    {now : Int64} {today : Date} {i : Option Increment} {r₁ : Registry}
    (hs : r.stop client handle now today = some (i, r₁)) : Untouched c r r₁ := by
  obtain ⟨k, t, -, rfl, -, ⟨-, -, rfl⟩ | ⟨-, -, rfl⟩⟩ := stop_eq_some hr hs
  · refine ⟨?_, ?_⟩
    · rw [timers_remove]
      exact filter_erase_other hc _
    · rw [clients_remove, if_neg (Ne.symm hc)]
  · exact ⟨Index.filter_change_of_not (p := fun k : Key => decide (k.client = c))
      (decide_eq_false hc) _ _, rfl⟩

theorem untouched_disconnect (hr : r.Listed) {client : ClientId} (hc : client ≠ c) (now : Int64)
    (today : Date) : Untouched c r (r.disconnect client now today).2 := by
  refine ⟨?_, ?_⟩
  · rw [timers_disconnect now today client hr, List.filter_filter]
    apply List.filter_congr
    intro e _
    by_cases he : e.1.client = c
    · simp [he, Ne.symm hc]
    · simp [he]
  · rw [clients_disconnect now today client hr, Index.get?_erase, if_neg (Ne.symm hc)]

theorem untouched_perform (hr : r.Coherent) {t : Timed} (ht : t.operation.concerns c = false) :
    Untouched c r (r.perform t).2 ∧ r.seen c t = none := by
  obtain ⟨operation, now, today⟩ := t
  cases operation with
  | start s =>
    have hs : s.client ≠ c := of_decide_eq_false ht
    exact ⟨untouched_start hs now, if_neg hs⟩
  | stop client handle =>
    have hc : client ≠ c := of_decide_eq_false ht
    refine ⟨?_, if_neg hc⟩
    simp only [perform]
    split
    · next hs => exact untouched_stop hr.toLinked hc hs
    · exact ⟨rfl, rfl⟩
  | disconnect client =>
    have hc : client ≠ c := of_decide_eq_false ht
    exact ⟨untouched_disconnect hr.toListed hc now today, if_neg hc⟩
  | drain => cases ht
  | purge => cases ht
  | split day => cases ht

end Others

section Own

theorem Apart.start (h : Apart c ρ r r') (hρ : ρ ⟨r.nextHandle⟩ = ⟨r'.nextHandle⟩) {s : Start}
    (hs : s.client = c) (now : Int64) : Apart c ρ (r.start s now).2 (r'.start s now).2 where
  timers := by
    simp only [Registry.start, h.timers]
    refine (portion_alter (by exact hs) (fun o => ?_) _).symm
    cases o <;> simp [Running.rename, hρ]
  owned := by
    subst hs
    simp only [Registry.start, Index.get?_alter_self, h.owned]

variable {handle : TimerHandle}

theorem filter_map_rename {xs : List TimerHandle} (hinj : ∀ x ∈ xs, ρ x = ρ handle → x = handle) :
    (xs.map ρ).filter (· ≠ ρ handle) = (xs.filter (· ≠ handle)).map ρ := by
  rw [List.filter_map]
  congr 1
  apply List.filter_congr
  intro x hx
  by_cases hxh : x = handle
  · simp [hxh]
  · have hne : ¬ρ x = ρ handle := fun he => hxh (hinj x hx he)
    simp [hxh, hne]

theorem Apart.stop (h : Apart c ρ r r') (now : Int64) (today : Date) (hr : r.Linked)
    (hr' : r'.Linked)
    (hinj : ∀ k t, r.timers.get? k = some t → k.client = c →
      ∀ x ∈ t.handles, ρ x = ρ handle → x = handle) :
    match r.stop c handle now today with
    | none => r'.stop c (ρ handle) now today = none
    | some (i, r₁) => ∃ r₁', r'.stop c (ρ handle) now today = some (i, r₁') ∧ Apart c ρ r₁ r₁' := by
  cases hs : r.stop c handle now today with
  | none =>
    dsimp only
    by_contra hne
    obtain ⟨⟨i, r₁'⟩, hs'⟩ := Option.ne_none_iff_exists'.1 hne
    obtain ⟨k, t', ht', hk, hm', -⟩ := stop_eq_some hr' hs'
    rw [h.timers, get?_portion, if_pos hk, Option.map_eq_some_iff] at ht'
    obtain ⟨t, ht, rfl⟩ := ht'
    obtain ⟨x, hx, hρ⟩ := List.mem_map.1 hm'
    rw [hinj k t ht hk x hx hρ] at hx
    exact stop_eq_none hr hs k t ht hk hx
  | some p =>
    obtain ⟨i, r₁⟩ := p
    dsimp only
    obtain ⟨k, t, ht, hk, hm, hcases⟩ := stop_eq_some hr hs
    have ht' : r'.timers.get? k = some (t.rename ρ) := by
      rw [h.timers, get?_portion, if_pos hk, ht, Option.map_some]
    have hm' : ρ handle ∈ (t.rename ρ).handles := List.mem_map_of_mem hm
    have hfilter : (t.rename ρ).handles.filter (· ≠ ρ handle) =
        (t.handles.filter (· ≠ handle)).map ρ := filter_map_rename (hinj k t ht hk)
    obtain ⟨⟨i', r₁'⟩, hs'⟩ := Option.ne_none_iff_exists'.1
      fun hn => stop_eq_none hr' hn k (t.rename ρ) ht' hk hm'
    obtain ⟨k', t', hget, -, hmem, hcases'⟩ := stop_eq_some hr' hs'
    obtain rfl : k' = k := hr'.unique hget hmem ht' hm'
    rw [ht'] at hget
    cases hget
    rw [hs']
    rcases hcases with ⟨hone, rfl, rfl⟩ | ⟨hleft, rfl, rfl⟩
    · rcases hcases' with ⟨-, rfl, rfl⟩ | ⟨hleft', -, -⟩
      · refine ⟨_, rfl, ?_, ?_⟩
        · rw [timers_remove, timers_remove, h.timers, portion_erase]
        · rw [clients_remove, clients_remove, h.owned]
      · rw [hfilter, hone] at hleft'
        simp at hleft'
    · rcases hcases' with ⟨hone', -, -⟩ | ⟨-, rfl, rfl⟩
      · have hnil : [ρ handle].filter (· ≠ ρ handle) = [] := by simp
        rw [hone', hnil] at hfilter
        exact absurd (List.map_eq_nil_iff.1 hfilter.symm) hleft
      · refine ⟨_, rfl, ?_, h.owned⟩
        simp only [loosen, h.timers]
        refine (portion_alter (by exact hk) (fun _ => ?_) _).symm
        simp only [Running.rename, filter_map_rename (hinj k' t ht hk)]

theorem endAll_portion {keys : List Key} (hkeys : ∀ k ∈ keys, k.client = c)
    (ht : r'.timers = portion c ρ r.timers) (now : Int64) (today : Date) :
    (r'.endAll now today keys).1 = (r.endAll now today keys).1 ∧
      (r'.endAll now today keys).2.timers = portion c ρ (r.endAll now today keys).2.timers := by
  induction keys generalizing r r' with
  | nil => exact ⟨rfl, ht⟩
  | cons k keys ih =>
    have hget : r'.timers.get? k = (r.timers.get? k).map (·.rename ρ) := by
      rw [ht, get?_portion, if_pos (hkeys k List.mem_cons_self)]
    have hrest := fun j hj => hkeys j (List.mem_cons_of_mem k hj)
    rw [endAll, endAll, hget]
    cases hk : r.timers.get? k with
    | none => exact ih hrest ht
    | some t =>
      have hremoved : (r'.remove k (t.rename ρ)).timers = portion c ρ (r.remove k t).timers := by
        rw [timers_remove, timers_remove, ht, portion_erase]
      obtain ⟨hyield, htimers⟩ := ih hrest hremoved
      exact ⟨congrArg (t.increment k now today :: ·) hyield, htimers⟩

theorem Apart.disconnect (h : Apart c ρ r r') (hr : r.Listed) (hr' : r'.Listed) (now : Int64)
    (today : Date) :
    (r'.disconnect c now today).1 = (r.disconnect c now today).1 ∧
      Apart c ρ (r.disconnect c now today).2 (r'.disconnect c now today).2 := by
  have hkeys : ∀ k ∈ r.owned c, k.client = c := fun k hk => ((hr.owner c k).1 hk).1
  have hportion : ({ r' with clients := r'.clients.erase c } : Registry).timers =
      portion c ρ ({ r with clients := r.clients.erase c } : Registry).timers := h.timers
  obtain ⟨hyield, htimers⟩ := endAll_portion hkeys hportion now today
  have howned : r'.disconnect c now today =
      { r' with clients := r'.clients.erase c }.endAll now today (r.owned c) := by
    rw [Registry.disconnect, h.owned]
    rfl
  refine ⟨?_, ?_, ?_⟩
  · rw [howned, hyield]
    rfl
  · rw [howned, htimers]
    rfl
  · rw [clients_disconnect now today c hr, clients_disconnect now today c hr', Index.get?_erase,
      Index.get?_erase, if_pos rfl, if_pos rfl]

theorem Apart.cleared (r r' : Registry) : Apart c ρ r.cleared r'.cleared := ⟨rfl, rfl⟩

theorem Apart.split (h : Apart c ρ r r') (now : Int64) (day : Date) :
    Apart c ρ (r.split now day).2 (r'.split now day).2 where
  timers := by
    simp only [Registry.split, h.timers, portion, Index.mapValues, List.filter_map, List.map_map]
    rfl
  owned := h.owned

theorem Apart.share (h : Apart c ρ r r') (now : Int64) (day : Date) :
    r'.share c (r'.increments now day) = r.share c (r.increments now day) := by
  have hown : ∀ e ∈ (portion c ρ r.timers).entries, e.1.client = c := by
    intro e he
    obtain ⟨e', he', rfl⟩ := List.mem_map.1 he
    exact of_decide_eq_true (List.mem_filter.1 he').2
  rw [share_increments, share_increments, h.timers,
    List.filter_eq_self.2 fun e he => decide_eq_true (hown e he), portion, List.map_map]
  rfl

/-- What a client asks for or no client does comes to the same for the client in both registries. -/
theorem Apart.perform (h : Apart c ρ r r') (hr : r.Coherent) (hr' : r'.Coherent)
    (hinj : ∀ x ∈ H, ∀ y, ρ x = ρ y → x = y) (hH : Among H c r) {t : Timed}
    (ht : t.operation.concerns c)
    (hρ : t.operation.grants c → ρ ⟨r.nextHandle⟩ = ⟨r'.nextHandle⟩) :
    r'.seen c (t.rename ρ) = (r.seen c t).map (Outcome.rename ρ) ∧
      Apart c ρ (r.perform t).2 (r'.perform (t.rename ρ)).2 := by
  obtain ⟨operation, now, today⟩ := t
  cases operation with
  | start s =>
    have hs : s.client = c := of_decide_eq_true ht
    refine ⟨?_, h.start (hρ ht) hs now⟩
    simp only [seen, Timed.rename, Operation.rename, if_pos hs]
    exact congrArg (some ∘ Outcome.started) (hρ ht).symm
  | stop client handle =>
    obtain rfl : client = c := of_decide_eq_true ht
    have hstop := h.stop now today hr.toLinked hr'.toLinked
      fun k t hk hc x hx => hinj x (hH k t hk hc x hx) handle
    simp only [seen, Timed.rename, Operation.rename, Registry.perform]
    cases hs : r.stop client handle now today with
    | none =>
      rw [hs] at hstop
      simp only [hstop]
      exact ⟨rfl, h⟩
    | some p =>
      rw [hs] at hstop
      obtain ⟨r₁', hs', happart⟩ := hstop
      simp only [hs']
      exact ⟨rfl, happart⟩
  | disconnect client =>
    obtain rfl : client = c := of_decide_eq_true ht
    obtain ⟨hyield, happart⟩ := h.disconnect hr.toListed hr'.toListed now today
    refine ⟨?_, happart⟩
    simp only [seen, Timed.rename, Operation.rename, Registry.perform, hyield]
    rfl
  | drain =>
    exact ⟨congrArg (some ∘ Outcome.yielded) (h.share now today), Apart.cleared r r'⟩
  | purge => exact ⟨rfl, Apart.cleared r r'⟩
  | split day =>
    exact ⟨congrArg (some ∘ Outcome.yielded) (h.share now day), h.split now day⟩

end Own

theorem Among.perform (hH : Among H c r) (hr : r.Coherent) {t : Timed}
    (hgiven : t.operation.grants c → ⟨r.nextHandle⟩ ∈ H) :
    Among H c (r.perform t).2 := by
  intro k t' ht' hk x hx
  have hold : (∃ t₀, r.timers.get? k = some t₀ ∧ x ∈ t₀.handles) → x ∈ H :=
    fun ⟨t₀, ht₀, hx⟩ => hH k t₀ ht₀ hk x hx
  obtain ⟨operation, now, today⟩ := t
  cases operation with
  | start s =>
    rcases (mem_handles_start s now).1 ⟨t', ht', hx⟩ with h | ⟨rfl, rfl⟩
    · exact hold h
    · exact hgiven (decide_eq_true hk)
  | stop client handle =>
    simp only [Registry.perform] at ht'
    split at ht'
    · next hs => exact hold ((mem_handles_stop hr.toLinked hs).1 ⟨t', ht', hx⟩).1
    · exact hold ⟨t', ht', hx⟩
  | disconnect client => exact hold ((mem_handles_disconnect hr.toListed).1 ⟨t', ht', hx⟩).1
  | drain => cases ht'
  | purge => cases ht'
  | split day => exact hold ((mem_handles_split now day).1 ⟨t', ht', hx⟩)

end Registry

end Telemetry.Timer

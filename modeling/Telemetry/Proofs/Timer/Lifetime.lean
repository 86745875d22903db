import Mathlib.Data.List.Induction
import Telemetry.Daemon.Recording
import Telemetry.Proofs.Timer.Operation

namespace Telemetry.Timer

open Calendar Tally

/-- An operation and what came of it. -/
structure Performed where
  operation : Operation
  outcome : Outcome
  deriving DecidableEq, Repr

/-- Whether a handle of a client dies by what was performed. -/
def Performed.Ends (client : ClientId) (handle : TimerHandle) : Performed → Prop
  | ⟨.stop _ h, .released _⟩ => h = handle
  | ⟨.disconnect c, _⟩ => c = client
  | ⟨.drain, _⟩ => True
  | ⟨.purge, _⟩ => True
  | _ => False

instance (client : ClientId) (handle : TimerHandle) (e : Performed) :
    Decidable (e.Ends client handle) := by
  unfold Performed.Ends
  split <;> infer_instance

def issued (es : List Performed) : List TimerHandle := es.filterMap (·.outcome.given?)

/-- The start gave out the handle, and nothing has ended it since. -/
def Live (es : List Performed) (s : Start) (handle : TimerHandle) : Prop :=
  ∃ before after, es = before ++ ⟨.start s, .started handle⟩ :: after ∧
    ∀ e ∈ after, ¬e.Ends s.client handle

def Alive (es : List Performed) (key : Key) : Prop := ∃ s handle, s.key = key ∧ Live es s handle

/-- The start found no live handle under its key, and there was one at every moment since. -/
def Began (es : List Performed) (s : Start) : Prop :=
  ∃ before after handle, es = before ++ ⟨.start s, .started handle⟩ :: after ∧
    ¬Alive before s.key ∧
    ∀ since, since <+: after → Alive (before ++ ⟨.start s, .started handle⟩ :: since) s.key

variable {es : List Performed} {e : Performed} {s : Start} {handle : TimerHandle}

theorem append_cons_concat {α : Type} {xs before after : List α} {x y : α}
    (h : xs ++ [y] = before ++ x :: after) : xs = before ∧ y = x ∧ after = [] ∨
      ∃ after', after = after' ++ [y] ∧ xs = before ++ x :: after' := by
  rcases List.eq_nil_or_concat after with rfl | ⟨after', z, rfl⟩
  · obtain ⟨hxs, hy⟩ := List.append_inj' h rfl
    exact .inl ⟨hxs, List.singleton_inj.1 hy, rfl⟩
  · rw [List.concat_eq_append, ← List.cons_append, ← List.append_assoc] at h
    obtain ⟨hxs, hy⟩ := List.append_inj' h rfl
    exact .inr ⟨after', by rw [List.singleton_inj.1 hy, List.concat_eq_append], hxs⟩

theorem live_concat : Live (es ++ [e]) s handle ↔
    e = ⟨.start s, .started handle⟩ ∨ Live es s handle ∧ ¬e.Ends s.client handle := by
  constructor
  · rintro ⟨before, after, heq, hafter⟩
    rcases append_cons_concat heq with ⟨-, he, -⟩ | ⟨after', rfl, rfl⟩
    · exact .inl he
    · have he := hafter e (by simp)
      exact .inr ⟨⟨before, after', rfl, fun e' he' => hafter e' (by simp [he'])⟩, he⟩
  · rintro (rfl | ⟨⟨before, after, rfl, hafter⟩, he⟩)
    · exact ⟨es, [], rfl, fun e he => nomatch he⟩
    · refine ⟨before, after ++ [e], by simp, fun e' he' => ?_⟩
      rcases List.mem_append.1 he' with he' | he'
      · exact hafter e' he'
      · rw [List.mem_singleton.1 he']
        exact he

theorem not_live_nil : ¬Live [] s handle := by
  rintro ⟨before, after, h, -⟩
  simp at h

theorem issued_concat (es : List Performed) (e : Performed) :
    issued (es ++ [e]) = issued es ++ e.outcome.given?.toList := by
  rw [issued, List.filterMap_append, issued]
  cases h : e.outcome.given? <;> simp [h]

theorem began_concat_start (h : ¬Alive es s.key) :
    Began (es ++ [⟨.start s, .started handle⟩]) s := by
  refine ⟨es, [], handle, rfl, h, fun since hs => ?_⟩
  rw [List.prefix_nil.1 hs]
  exact ⟨s, handle, rfl, live_concat.2 (.inl rfl)⟩

theorem Began.concat (h : Began es s) (ha : Alive (es ++ [e]) s.key) : Began (es ++ [e]) s := by
  obtain ⟨before, after, handle, rfl, hbefore, hsince⟩ := h
  refine ⟨before, after ++ [e], handle, by simp, hbefore, fun since hs => ?_⟩
  rcases List.prefix_concat_iff.1 hs with rfl | hs
  · simpa using ha
  · exact hsince since hs

namespace Registry

def history (r : Registry) : List Timed → List Performed
  | [] => []
  | t :: ts => ⟨t.operation, (r.perform t).1⟩ :: (r.perform t).2.history ts

theorem history_concat (r : Registry) (ts : List Timed) (t : Timed) :
    r.history (ts ++ [t]) = r.history ts ++ [⟨t.operation, ((r.run ts).perform t).1⟩] := by
  induction ts generalizing r with
  | nil => rfl
  | cons t' ts ih => rw [List.cons_append, history, ih, history, run_cons, List.cons_append]

/-- The registry is what the history says: its timers list the live handles, with user and payload of
the start that began the timer, and the next handle was not given out yet. -/
structure Reflects (r : Registry) (es : List Performed) : Prop where
  coherent : r.Coherent
  listed : ∀ k h, (∃ t, r.timers.get? k = some t ∧ h ∈ t.handles) ↔ ∃ s, s.key = k ∧ Live es s h
  origin : ∀ k t, r.timers.get? k = some t →
    ∃ s, s.key = k ∧ Began es s ∧ t.user = s.user ∧ t.payload = s.payload
  distinct : (issued es).Nodup
  below : ∀ h ∈ issued es, h.number.toNat < r.nextHandle.toNat

variable {r r' : Registry}

theorem reflects_empty : empty.Reflects [] where
  coherent := coherent_empty
  listed := by simp [empty, not_live_nil]
  origin := by simp [empty]
  distinct := List.nodup_nil
  below := by simp [issued]

theorem Reflects.alive_iff (h : r.Reflects es) (k : Key) :
    Alive es k ↔ ∃ t, r.timers.get? k = some t := by
  constructor
  · rintro ⟨s, x, hs, hlive⟩
    obtain ⟨t, ht, -⟩ := (h.listed k x).2 ⟨s, hs, hlive⟩
    exact ⟨t, ht⟩
  · rintro ⟨t, ht⟩
    obtain ⟨x, hx⟩ := List.exists_mem_of_ne_nil _ (h.coherent.held k t ht)
    obtain ⟨s, hs, hlive⟩ := (h.listed k x).1 ⟨t, ht, hx⟩
    exact ⟨s, x, hs, hlive⟩

theorem Reflects.start (h : r.Reflects es) (h0 : 0 < r.nextHandle.toNat)
    (hn : r.nextHandle.toNat + 1 < UInt64.size) (s : Start) (now : Int64) :
    (r.start s now).2.Reflects (es ++ [⟨.start s, .started ⟨r.nextHandle⟩⟩]) := by
  have hlisted : ∀ k x, (∃ t, (r.start s now).2.timers.get? k = some t ∧ x ∈ t.handles) ↔
      ∃ s', s'.key = k ∧ Live (es ++ [⟨.start s, .started ⟨r.nextHandle⟩⟩]) s' x := by
    intro k x
    rw [mem_handles_start, h.listed]
    constructor
    · rintro (⟨s', hs', hlive⟩ | ⟨rfl, rfl⟩)
      · exact ⟨s', hs', live_concat.2 (.inr ⟨hlive, id⟩)⟩
      · exact ⟨s, rfl, live_concat.2 (.inl rfl)⟩
    · rintro ⟨s', rfl, hlive⟩
      rcases live_concat.1 hlive with he | ⟨hlive, -⟩
      · cases he
        exact .inr ⟨rfl, rfl⟩
      · exact .inl ⟨s', rfl, hlive⟩
  refine ⟨coherent_start s now h.coherent h0 hn, hlisted, fun k t ht => ?_, ?_, fun x hx => ?_⟩
  · obtain ⟨x, hx⟩ := List.exists_mem_of_ne_nil _
      ((coherent_start s now h.coherent h0 hn).held k t ht)
    obtain ⟨s', hs', hlive⟩ := (hlisted k x).1 ⟨t, ht, hx⟩
    have halive : Alive (es ++ [⟨.start s, .started ⟨r.nextHandle⟩⟩]) k := ⟨s', x, hs', hlive⟩
    -- a timer that ran before goes on with the start that began it
    have hold : ∀ t₀, r.timers.get? k = some t₀ → t.user = t₀.user → t.payload = t₀.payload →
        ∃ s₀, s₀.key = k ∧ Began (es ++ [⟨.start s, .started ⟨r.nextHandle⟩⟩]) s₀ ∧
          t.user = s₀.user ∧ t.payload = s₀.payload := by
      intro t₀ ht₀ huser hpayload
      obtain ⟨s₀, rfl, hbegan, hu, hp⟩ := h.origin k t₀ ht₀
      exact ⟨s₀, rfl, hbegan.concat halive, huser.trans hu, hpayload.trans hp⟩
    rw [timers_start] at ht
    split at ht
    · next hk =>
      subst hk
      cases hget : r.timers.get? s.key with
      | some t₀ =>
        rw [hget] at ht
        cases ht
        exact hold t₀ hget rfl rfl
      | none =>
        rw [hget] at ht
        cases ht
        have hdead : ¬Alive es s.key := by
          rw [h.alive_iff]
          simp [hget]
        exact ⟨s, rfl, began_concat_start hdead, rfl, rfl⟩
    · exact hold t ht rfl rfl
  · rw [issued_concat, List.nodup_append]
    refine ⟨h.distinct, by simp [Outcome.given?], ?_⟩
    rintro a ha b hb rfl
    have hlt := h.below a ha
    rw [Outcome.given?, Option.toList_some, List.mem_singleton] at hb
    rw [hb] at hlt
    exact Nat.lt_irrefl _ hlt
  · rw [nextHandle_start s now hn]
    rw [issued_concat, List.mem_append] at hx
    rcases hx with hx | hx
    · exact Nat.lt_succ_of_lt (h.below x hx)
    · rw [Outcome.given?, Option.toList_some, List.mem_singleton] at hx
      rw [hx]
      exact Nat.lt_succ_self _

/-- An operation that gives out no handle keeps user and payload of the timers that go on, and takes
from them the handles that it ends. -/
theorem Reflects.concat (h : r.Reflects es) (hr : r'.Coherent)
    (hnext : r'.nextHandle = r.nextHandle) (hgiven : e.outcome.given? = none)
    (hlisted : ∀ k x, (∃ t, r'.timers.get? k = some t ∧ x ∈ t.handles) ↔
      (∃ t, r.timers.get? k = some t ∧ x ∈ t.handles) ∧ ¬e.Ends k.client x)
    (hkept : ∀ k t, r'.timers.get? k = some t →
      ∃ t₀, r.timers.get? k = some t₀ ∧ t.user = t₀.user ∧ t.payload = t₀.payload) :
    r'.Reflects (es ++ [e]) := by
  have hissued : issued (es ++ [e]) = issued es := by
    rw [issued_concat, hgiven, Option.toList_none, List.append_nil]
  have hlive : ∀ k x, (∃ t, r'.timers.get? k = some t ∧ x ∈ t.handles) ↔
      ∃ s, s.key = k ∧ Live (es ++ [e]) s x := by
    intro k x
    rw [hlisted, h.listed]
    constructor
    · rintro ⟨⟨s, rfl, hlive⟩, hends⟩
      exact ⟨s, rfl, live_concat.2 (.inr ⟨hlive, hends⟩)⟩
    · rintro ⟨s, rfl, hlive⟩
      rcases live_concat.1 hlive with rfl | ⟨hlive, hends⟩
      · cases hgiven
      · exact ⟨⟨s, rfl, hlive⟩, hends⟩
  refine ⟨hr, hlive, fun k t ht => ?_, hissued ▸ h.distinct, fun x hx => ?_⟩
  · obtain ⟨t₀, ht₀, huser, hpayload⟩ := hkept k t ht
    obtain ⟨s₀, rfl, hbegan, hu, hp⟩ := h.origin k t₀ ht₀
    obtain ⟨x, hx⟩ := List.exists_mem_of_ne_nil _ (hr.held s₀.key t ht)
    obtain ⟨s, hs, hlive⟩ := (hlive s₀.key x).1 ⟨t, ht, hx⟩
    exact ⟨s₀, rfl, hbegan.concat ⟨s, x, hs, hlive⟩, huser.trans hu, hpayload.trans hp⟩
  · rw [hnext]
    rw [hissued] at hx
    exact h.below x hx

theorem mem_handles_stop (hr : r.Linked) {client : ClientId} {now : Int64} {today : Date}
    {i : Option Increment} (hs : r.stop client handle now today = some (i, r')) {k : Key}
    {x : TimerHandle} : (∃ t, r'.timers.get? k = some t ∧ x ∈ t.handles) ↔
      (∃ t, r.timers.get? k = some t ∧ x ∈ t.handles) ∧ handle ≠ x := by
  obtain ⟨key, t, ht, -, hm, hcases⟩ := stop_eq_some hr hs
  have hother (hk : k ≠ key) : (∃ t', r.timers.get? k = some t' ∧ x ∈ t'.handles) → handle ≠ x := by
    rintro ⟨t', ht', hx⟩ rfl
    exact hk (hr.unique ht' hx ht hm)
  rcases hcases with ⟨hone, -, rfl⟩ | ⟨-, -, rfl⟩
  · rw [timers_remove, Index.get?_erase]
    by_cases hk : k = key
    · subst hk
      simp [ht, hone, eq_comm]
    · rw [if_neg hk]
      exact (and_iff_left_of_imp (hother hk)).symm
  · simp only [loosen, Index.get?_insert]
    by_cases hk : k = key
    · subst hk
      simp [ht, eq_comm (a := handle)]
    · simp only [if_neg hk]
      exact (and_iff_left_of_imp (hother hk)).symm

theorem mem_handles_disconnect (hr : r.Listed) {client : ClientId} {now : Int64} {today : Date}
    {k : Key} {x : TimerHandle} :
    (∃ t, (r.disconnect client now today).2.timers.get? k = some t ∧ x ∈ t.handles) ↔
      (∃ t, r.timers.get? k = some t ∧ x ∈ t.handles) ∧ client ≠ k.client := by
  rw [get?_disconnect hr]
  by_cases hk : k.client = client
  · simp [hk]
  · simp [hk, Ne.symm hk]

theorem mem_handles_split (now : Int64) (day : Date) {k : Key} {x : TimerHandle} :
    (∃ t, (r.split now day).2.timers.get? k = some t ∧ x ∈ t.handles) ↔
      ∃ t, r.timers.get? k = some t ∧ x ∈ t.handles := by
  rw [get?_split]
  cases r.timers.get? k <;> simp

theorem Reflects.cleared (h : r.Reflects es) (hgiven : e.outcome.given? = none)
    (hends : ∀ c x, e.Ends c x) : r.cleared.Reflects (es ++ [e]) := by
  refine h.concat (coherent_cleared r) rfl hgiven (fun k x => ?_) fun k t ht => nomatch ht
  simp [Registry.cleared, empty, hends]

theorem Reflects.stop (h : r.Reflects es) {client : ClientId} {now : Int64} {today : Date}
    {i : Option Increment} (hs : r.stop client handle now today = some (i, r')) :
    r'.Reflects (es ++ [⟨.stop client handle, .released i⟩]) := by
  have hl := h.coherent.toLinked
  obtain ⟨hr', hnext⟩ := coherent_stop h.coherent hs
  refine h.concat hr' hnext rfl (fun k x => mem_handles_stop hl hs) fun k t' ht' => ?_
  obtain ⟨key, t, ht, -, -, ⟨-, -, rfl⟩ | ⟨-, -, rfl⟩⟩ := stop_eq_some hl hs
  · rw [timers_remove, Index.get?_erase] at ht'
    split at ht'
    · cases ht'
    · exact ⟨t', ht', rfl, rfl⟩
  · simp only [loosen, Index.get?_insert] at ht'
    split at ht'
    · next hk =>
      cases ht'
      exact ⟨t, hk ▸ ht, rfl, rfl⟩
    · exact ⟨t', ht', rfl, rfl⟩

theorem Reflects.disconnect (h : r.Reflects es) (client : ClientId) (now : Int64) (today : Date) :
    (r.disconnect client now today).2.Reflects
      (es ++ [⟨.disconnect client, .yielded (r.disconnect client now today).1⟩]) := by
  have hl := h.coherent.toListed
  obtain ⟨hr', hnext⟩ := coherent_disconnect now today client h.coherent
  refine h.concat hr' hnext rfl (fun k x => mem_handles_disconnect hl) fun k t ht => ?_
  rw [get?_disconnect hl] at ht
  split at ht
  · cases ht
  · exact ⟨t, ht, rfl, rfl⟩

theorem Reflects.split (h : r.Reflects es) (now : Int64) (day : Date) :
    (r.split now day).2.Reflects (es ++ [⟨.split day, .yielded (r.split now day).1⟩]) := by
  refine h.concat (coherent_split h.coherent now day) rfl rfl (fun k x => ?_) fun k t ht => ?_
  · rw [mem_handles_split]
    exact (and_iff_left id).symm
  · rw [get?_split, Option.map_eq_some_iff] at ht
    obtain ⟨t₀, ht₀, rfl⟩ := ht
    exact ⟨t₀, ht₀, rfl, rfl⟩

theorem reflects_perform (h : r.Reflects es) (h0 : 0 < r.nextHandle.toNat) {t : Timed}
    (hn : r.nextHandle.toNat + t.operation.starts < UInt64.size) :
    (r.perform t).2.Reflects (es ++ [⟨t.operation, (r.perform t).1⟩]) := by
  obtain ⟨operation, now, today⟩ := t
  cases operation with
  | start s => exact h.start h0 hn s now
  | stop client handle =>
    simp only [perform]
    split
    · next hs => exact h.stop hs
    · exact h.concat h.coherent rfl rfl (fun k x => (and_iff_left id).symm)
        fun k t ht => ⟨t, ht, rfl, rfl⟩
  | disconnect client => exact h.disconnect client now today
  | drain => exact h.cleared rfl fun _ _ => trivial
  | purge => exact h.cleared rfl fun _ _ => trivial
  | split day => exact h.split now day

theorem starts_concat (ts : List Timed) (t : Timed) :
    starts (ts ++ [t]) = starts ts + t.operation.starts := by
  simp [starts]

theorem reflects_run {ts : List Timed} (hts : starts ts < 2 ^ 64 - 1) :
    (empty.run ts).Reflects (empty.history ts) ∧
      (empty.run ts).nextHandle.toNat = 1 + starts ts := by
  have hsize : UInt64.size = 2 ^ 64 := rfl
  have h1 : empty.nextHandle.toNat = 1 := rfl
  induction ts using List.reverseRecOn with
  | nil => exact ⟨reflects_empty, rfl⟩
  | append_singleton ts t ih =>
    rw [starts_concat] at hts ⊢
    obtain ⟨hreflects, hnext⟩ := ih (by omega)
    have hn : (empty.run ts).nextHandle.toNat + t.operation.starts < UInt64.size := by omega
    obtain ⟨-, hnext'⟩ := coherent_perform hreflects.coherent (by omega) hn
    rw [run_concat, history_concat]
    refine ⟨reflects_perform hreflects (by omega) hn, ?_⟩
    omega

section Stop

variable {client : ClientId} {now : Int64} {today : Date} {i : Option Increment}

theorem perform_stop_eq_released : r.perform ⟨.stop client handle, now, today⟩ = (.released i, r') ↔
    r.stop client handle now today = some (i, r') := by
  cases hs : r.stop client handle now today with
  | none => simp [perform, hs]
  | some p => simp [perform, hs, Prod.ext_iff]

theorem Reflects.isSome_stop_iff (h : r.Reflects es) (now : Int64) (today : Date) :
    (r.stop client handle now today).isSome ↔ ∃ s, s.client = client ∧ Live es s handle := by
  have hl := h.coherent.toLinked
  constructor
  · intro hs
    obtain ⟨⟨i, r'⟩, hs⟩ := Option.isSome_iff_exists.1 hs
    obtain ⟨k, t, ht, hc, hm, -⟩ := stop_eq_some hl hs
    obtain ⟨s, rfl, hlive⟩ := (h.listed k handle).1 ⟨t, ht, hm⟩
    exact ⟨s, hc, hlive⟩
  · rintro ⟨s, rfl, hlive⟩
    obtain ⟨t, ht, hm⟩ := (h.listed s.key handle).2 ⟨s, rfl, hlive⟩
    rw [Option.isSome_iff_ne_none]
    exact fun hn => stop_eq_none hl hn s.key t ht rfl hm

theorem Reflects.of_stop (h : r.Reflects es) (hlive : Live es s handle)
    (hs : r.stop s.client handle now today = some (i, r')) :
    (i.isSome ↔ ∀ s' handle', s'.key = s.key → Live es s' handle' → handle' = handle) ∧
      ∀ inc, i = some inc → inc.event = s.event ∧ ∃ s₀, s₀.key = s.key ∧ Began es s₀ ∧
        inc.user = s₀.user ∧ inc.payload = s₀.payload := by
  have hl := h.coherent.toLinked
  obtain ⟨k, t, ht, -, hm, hcases⟩ := stop_eq_some hl hs
  obtain ⟨t', ht', hm'⟩ := (h.listed s.key handle).2 ⟨s, rfl, hlive⟩
  obtain rfl : s.key = k := hl.unique ht' hm' ht hm
  rcases hcases with ⟨hone, rfl, -⟩ | ⟨hleft, rfl, -⟩
  · refine ⟨iff_of_true rfl fun s' handle' hk hlive' => ?_, fun inc hinc => ?_⟩
    · obtain ⟨t'', ht'', hm''⟩ := (h.listed s.key handle').2 ⟨s', hk, hlive'⟩
      rw [ht] at ht''
      cases ht''
      rw [hone] at hm''
      exact List.mem_singleton.1 hm''
    · cases hinc
      obtain ⟨s₀, hk, hbegan, huser, hpayload⟩ := h.origin s.key t ht
      exact ⟨rfl, s₀, hk, hbegan, huser, hpayload⟩
  · refine ⟨iff_of_false Bool.false_ne_true fun hall => ?_, fun inc hi => nomatch hi⟩
    obtain ⟨x, hx⟩ := List.exists_mem_of_ne_nil _ hleft
    obtain ⟨hx, hne⟩ := List.mem_filter.1 hx
    obtain ⟨s', hk, hlive'⟩ := (h.listed s.key x).1 ⟨t, ht, hx⟩
    exact of_decide_eq_true hne (hall s' x hk hlive')

end Stop

/-- Handles are given out once. A client can stop just the live handles that were given out to it; any
other is unknown, and the stop leaves registry and daemon as they are. A stop yields an increment just
where no other handle under the same key is live, with user and payload of the start that began the
timer. -/
theorem stops_follow_history (ts : List Timed) (hts : starts ts < 2 ^ 64 - 1) :
    let r := empty.run ts
    let es := empty.history ts
    (issued es).Nodup ∧
    (∀ client handle now today,
      (∃ i r', r.perform ⟨.stop client handle, now, today⟩ = (.released i, r')) ↔
        ∃ s, s.client = client ∧ Live es s handle) ∧
    (∀ client handle now today, (¬∃ s, s.client = client ∧ Live es s handle) →
      r.perform ⟨.stop client handle, now, today⟩ = (.unknown handle, r) ∧
        ∀ (d : Daemon) (session : Session), d.timers = r → session.client = client →
          d.stopTimer session handle = (.error (.unknownHandle handle), d)) ∧
    ∀ s handle now today i r', Live es s handle →
      r.perform ⟨.stop s.client handle, now, today⟩ = (.released i, r') →
      (i.isSome ↔ ∀ s' handle', s'.key = s.key → Live es s' handle' → handle' = handle) ∧
        ∀ inc, i = some inc → inc.event = s.event ∧ ∃ s₀, s₀.key = s.key ∧ Began es s₀ ∧
          inc.user = s₀.user ∧ inc.payload = s₀.payload := by
  intro r es
  obtain ⟨hr, -⟩ := reflects_run hts
  refine ⟨hr.distinct, fun client handle now today => ?_, fun client handle now today hdead => ?_,
    fun s handle now today i r' hlive hp => ?_⟩
  · rw [← hr.isSome_stop_iff now today, Option.isSome_iff_exists, Prod.exists]
    simp only [perform_stop_eq_released]
    rfl
  · have hnone (now : Int64) (today : Date) :
        (empty.run ts).stop client handle now today = none := by
      rw [← Option.not_isSome_iff_eq_none, hr.isSome_stop_iff]
      exact hdead
    refine ⟨by simp only [perform, r, hnone], ?_⟩
    rintro d session hd rfl
    simp only [Daemon.stopTimer, Daemon.release, hd, r, hnone]
  · exact hr.of_stop hlive (perform_stop_eq_released.1 hp)

theorem stops_follow_history_interleaved :
    let s : Start := ⟨⟨1⟩, 1000, .nil, ⟨0⟩, none⟩
    let i : Increment := ⟨.nil, .epoch, 1000, some (.bool true), 5⟩
    starts interleaved < 2 ^ 64 - 1 ∧ Live (empty.history interleaved) s ⟨3⟩ ∧
      (∃ r', (empty.run interleaved).perform ⟨.stop ⟨1⟩ ⟨3⟩, 9000000000, .epoch⟩ =
        (.released (some i), r')) ∧
      (∀ s' handle, s'.key = s.key → Live (empty.history interleaved) s' handle → handle = ⟨3⟩) ∧
      ∃ s₀, s₀.key = s.key ∧ Began (empty.history interleaved) s₀ ∧ i.payload = s₀.payload := by
  intro s i
  have hstarts : starts interleaved < 2 ^ 64 - 1 := by decide
  have hlive : Live (empty.history interleaved) s ⟨3⟩ :=
    ⟨(empty.history interleaved).take 2, (empty.history interleaved).drop 3, by decide, by decide⟩
  have hstop : (empty.run interleaved).perform ⟨.stop ⟨1⟩ ⟨3⟩, 9000000000, .epoch⟩ =
    (.released (some i), _) := rfl
  obtain ⟨-, -, -, hyields⟩ := stops_follow_history interleaved hstarts
  obtain ⟨hlast, horigin⟩ := hyields s ⟨3⟩ _ _ _ _ hlive hstop
  obtain ⟨-, s₀, hk, hbegan, -, hpayload⟩ := horigin i rfl
  exact ⟨hstarts, hlive, ⟨_, hstop⟩, hlast.1 rfl, s₀, hk, hbegan, hpayload⟩

end Registry

end Telemetry.Timer

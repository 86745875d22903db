import Telemetry.Proofs.Timer.Book
import Telemetry.Proofs.Timer.Ending

namespace Telemetry.Timer

open Calendar Tally

namespace Registry

variable {r : Registry}

def logical (r : Registry) : List Logical := r.timers.entries.map Logical.of

theorem release_logical (hr : r.Linked) {p : Logical → TimerHandle → Bool} {q : Key → Bool}
    (h : ∀ e ∈ r.timers.entries, ∀ x ∈ e.2.handles, p (Logical.of e) x = q e.1) :
    r.logical.filterMap (Logical.after p) =
        (r.timers.entries.filter fun e => !q e.1).map Logical.of ∧
      r.logical.filter (Logical.ends p) = (r.timers.entries.filter fun e => q e.1).map Logical.of := by
  have hends : ∀ e ∈ r.timers.entries, (Logical.of e).ends p = q e.1 ∧
      (Logical.of e).after p = if q e.1 then none else some (Logical.of e) := by
    rintro ⟨k, v⟩ he
    have hne : v.handles ≠ [] := hr.held k v ((Index.get?_eq_some_iff hr.keys).2 he)
    have hp := h (k, v) he
    rw [Logical.after, Logical.ends, Logical.left]
    cases hq : q k with
    | true =>
      have hleft : v.handles.filter (fun x => !p (Logical.of (k, v)) x) = [] := by
        rw [List.filter_eq_nil_iff]
        intro x hx
        simp [hp x hx, hq]
      have hrefs : (Logical.of (k, v)).references = v.handles := rfl
      rw [hrefs, hleft]
      exact ⟨rfl, rfl⟩
    | false =>
      have hleft : v.handles.filter (fun x => !p (Logical.of (k, v)) x) = v.handles := by
        rw [List.filter_eq_self]
        intro x hx
        simp [hp x hx, hq]
      have hrefs : (Logical.of (k, v)).references = v.handles := rfl
      rw [hrefs, hleft]
      have hemp : v.handles.isEmpty = false := by simpa using hne
      rw [hemp]
      exact ⟨rfl, rfl⟩
  rw [logical]
  generalize r.timers.entries = es at hends
  induction es with
  | nil => exact ⟨rfl, rfl⟩
  | cons e es ih =>
    obtain ⟨hafter, hfilter⟩ := ih fun e' he' => hends e' (List.mem_cons_of_mem e he')
    obtain ⟨he, ha⟩ := hends e List.mem_cons_self
    cases hq : q e.1 with
    | true =>
      constructor
      · simp [ha, hq, hafter]
      · simp [he, hq, hfilter]
    | false =>
      constructor
      · simp [ha, hq, hafter]
      · simp [he, hq, hfilter]

/-- The registry and the book agree. -/
structure Mirrors (r : Registry) (b : Book) : Prop where
  coherent : r.Coherent
  given : r.nextHandle.toNat = b.given + 1
  running : b.running = r.logical
  begun : ∀ t ∈ b.running, 0 ≤ t.begun

def Yields (is : List Increment) (b b' : Book) : Prop :=
  ∃ new, b'.closed = b.closed ++ new ∧ is.Perm (new.map Interval.increment)

variable {b : Book} {now : Int64}

theorem mirrors_empty (now : Int) (today seen : Date) : empty.Mirrors (.opened now today seen) :=
  ⟨coherent_empty, rfl, rfl, fun _ h => nomatch h⟩

theorem mirrors_start (h : r.Mirrors b) (hnow : b.now = now.toInt) (hn : 0 ≤ b.now)
    (hg : b.given + 2 < UInt64.size) (s : Start) : (r.start s now).2.Mirrors (b.start s) := by
  have hg' : r.nextHandle.toNat + 1 < UInt64.size := by
    rw [h.given]
    exact hg
  have hhandle : UInt64.ofNat (b.given + 1) = r.nextHandle := by
    rw [← h.given, UInt64.ofNat_toNat]
  have hkeys : b.running.any (·.key = s.key) = decide (s.key ∈ r.timers.keys) := by
    rw [h.running, logical, List.any_map, Bool.eq_iff_iff, List.any_eq_true, decide_eq_true_eq]
    simp only [Function.comp_apply, decide_eq_true_eq, Index.keys, List.mem_map]
    rfl
  refine ⟨coherent_start s now h.coherent (by rw [h.given]; omega) hg', ?_, ?_, ?_⟩
  · rw [nextHandle_start s now hg', h.given]
    rfl
  · have hc : (r.start s now).2.timers.entries = Index.change s.key _ r.timers.entries := rfl
    rw [Book.start, hkeys, hhandle, logical, hc]
    by_cases hk : s.key ∈ r.timers.keys
    · rw [Index.change_of_mem h.coherent.keys hk, List.map_map, h.running, logical, List.map_map]
      simp only [hk, decide_true, if_true]
      apply List.map_congr_left
      intro e _
      simp only [Function.comp_apply]
      by_cases he : e.1 = s.key
      · rw [if_pos he, if_pos (show (Logical.of e).key = s.key from he)]
        rfl
      · rw [if_neg he, if_neg (show ¬(Logical.of e).key = s.key from he)]
    · rw [Index.change_of_not_mem hk, List.map_append, h.running, hnow]
      simp only [hk, decide_false, if_false, Bool.false_eq_true]
      rfl
  · intro t ht
    rw [Book.start] at ht
    dsimp only at ht
    split at ht
    · obtain ⟨t', ht', rfl⟩ := List.mem_map.1 ht
      split
      · exact h.begun t' ht'
      · exact h.begun t' ht'
    · rcases List.mem_append.1 ht with ht | ht
      · exact h.begun t ht
      · rw [List.mem_singleton.1 ht]
        exact hn

theorem mirrors_release (h : r.Mirrors b) (hnow : b.now = now.toInt) (hn : 0 ≤ b.now)
    {p : Logical → TimerHandle → Bool} {q : Key → Bool}
    (hp : ∀ e ∈ r.timers.entries, ∀ x ∈ e.2.handles, p (Logical.of e) x = q e.1)
    {r' : Registry} (hr' : r'.Coherent) (hnext : r'.nextHandle = r.nextHandle)
    (htimers : r'.timers.entries = r.timers.entries.filter fun e => !q e.1)
    {is : List Increment} (his : is.Perm ((r.timers.entries.filter fun e => q e.1).map
      fun e => e.2.increment e.1 now b.today)) :
    r'.Mirrors (b.release p) ∧ Yields is b (b.release p) := by
  obtain ⟨hafter, hends⟩ := release_logical h.coherent.toLinked hp
  have hold : ∀ e ∈ r.timers.entries, 0 ≤ e.2.started.toInt := by
    intro e he
    apply h.begun (Logical.of e)
    rw [h.running]
    exact List.mem_map_of_mem he
  refine ⟨⟨hr', hnext ▸ h.given, ?_, ?_⟩, (b.running.filter (Logical.ends p)).map
    (·.interval b.now b.today), rfl, ?_⟩
  · change b.running.filterMap (Logical.after p) = r'.logical
    rw [h.running, hafter, logical, htimers]
  · intro t ht
    rw [Book.release, h.running, hafter] at ht
    obtain ⟨e, he, rfl⟩ := List.mem_map.1 ht
    exact hold e (List.mem_filter.1 he).1
  · have heq : (((r.timers.entries.filter fun e => q e.1).map Logical.of).map
        (·.interval b.now b.today)).map Interval.increment =
        (r.timers.entries.filter fun e => q e.1).map fun e => e.2.increment e.1 now b.today := by
      rw [List.map_map, List.map_map]
      apply List.map_congr_left
      intro e he
      rw [hnow]
      exact (increment_eq (hold e (List.mem_filter.1 he).1) (hnow ▸ hn) b.today).symm
    rw [h.running, hends, heq]
    exact his

theorem filterMap_eq_map_of {α β : Type} {f : α → Option β} {g : α → β} {xs : List α}
    (h : ∀ x ∈ xs, f x = some (g x)) : xs.filterMap f = xs.map g := by
  induction xs with
  | nil => rfl
  | cons x xs ih =>
    have hxs := ih fun y hy => h y (List.mem_cons_of_mem x hy)
    rw [List.filterMap_cons_some (h x List.mem_cons_self), hxs, List.map_cons]

theorem release_loosen (hr : r.Linked) {k : Key} {t : Running} (hk : r.timers.get? k = some t)
    {handle : TimerHandle} (hm : handle ∈ t.handles)
    (hl : t.handles.filter (· ≠ handle) ≠ []) {p : Logical → TimerHandle → Bool}
    (hp : ∀ e ∈ r.timers.entries, ∀ x ∈ e.2.handles, p (Logical.of e) x = decide (x = handle)) :
    r.logical.filterMap (Logical.after p) = (r.loosen k t handle).logical ∧
      r.logical.filter (Logical.ends p) = [] := by
  have hleft : ∀ e ∈ r.timers.entries, (Logical.of e).left p =
      if e.1 = k then t.handles.filter (· ≠ handle) else e.2.handles := by
    rintro ⟨j, v⟩ he
    have hj := (Index.get?_eq_some_iff hr.keys).2 he
    have hpe := hp (j, v) he
    have hpred : (Logical.of (j, v)).left p = v.handles.filter (· ≠ handle) := by
      apply List.filter_congr
      intro x hx
      rw [hpe x hx]
      simp
    rw [hpred]
    by_cases hjk : j = k
    · rw [if_pos hjk]
      rw [hjk, hk] at hj
      cases hj
      rfl
    · rw [if_neg hjk, List.filter_eq_self]
      intro x hx
      apply decide_eq_true
      rintro rfl
      exact hjk (hr.unique hj hx hk hm)
  have hends : ∀ e ∈ r.timers.entries, (Logical.of e).ends p = false := by
    rintro ⟨j, v⟩ he
    have hj := (Index.get?_eq_some_iff hr.keys).2 he
    have hne : (Logical.of (j, v)).left p ≠ [] := by
      rw [hleft _ he]
      split
      · exact hl
      · exact hr.held j v hj
    rw [Logical.ends, List.isEmpty_eq_false_iff]
    exact hne
  constructor
  · have hmem : k ∈ r.timers.entries.map Prod.fst :=
      List.mem_map.2 ⟨_, (Index.get?_eq_some_iff hr.keys).1 hk, rfl⟩
    have hc : (r.loosen k t handle).timers.entries = Index.change k
        (fun _ => { t with handles := t.handles.filter (· ≠ handle) }) r.timers.entries := rfl
    rw [logical, logical, hc, Index.change_of_mem hr.keys hmem, List.filterMap_map, List.map_map]
    apply filterMap_eq_map_of
    rintro ⟨j, v⟩ he
    simp only [Function.comp_apply, Logical.after, hends _ he, hleft _ he, Bool.false_eq_true,
      if_false]
    by_cases hjk : j = k
    · have hj := (Index.get?_eq_some_iff hr.keys).2 he
      rw [hjk, hk] at hj
      cases hj
      rw [if_pos hjk, if_pos hjk]
      rfl
    · rw [if_neg hjk, if_neg hjk]
      rfl
  · rw [logical, List.filter_eq_nil_iff]
    intro u hu
    obtain ⟨e, he, rfl⟩ := List.mem_map.1 hu
    rw [hends e he]
    exact Bool.false_ne_true

theorem mirrors_stop {client : ClientId} {handle : TimerHandle} {i : Option Increment}
    {r' : Registry} (h : r.Mirrors b) (hnow : b.now = now.toInt) (hn : 0 ≤ b.now)
    (hs : r.stop client handle now b.today = some (i, r')) :
    r'.Mirrors (b.stop client handle) ∧ Yields i.toList b (b.stop client handle) := by
  have hr := h.coherent.toLinked
  obtain ⟨hr', hnext⟩ := coherent_stop h.coherent hs
  obtain ⟨k, t, hk, hc, hm, ⟨hone, rfl, rfl⟩ | ⟨hl, rfl, rfl⟩⟩ := stop_eq_some hr hs
  · have hp : ∀ e ∈ r.timers.entries, ∀ x ∈ e.2.handles,
        decide ((Logical.of e).key.client = client ∧ x = handle) = decide (e.1 = k) := by
      rintro ⟨j, v⟩ he x hx
      have hj := (Index.get?_eq_some_iff hr.keys).2 he
      apply decide_eq_decide.2
      constructor
      · rintro ⟨-, rfl⟩
        exact hr.unique hj hx hk hm
      · rintro rfl
        rw [hk] at hj
        cases hj
        rw [hone, List.mem_singleton] at hx
        exact ⟨hc, hx⟩
    refine mirrors_release h hnow hn (q := fun j => j = k) hp hr' hnext ?_ ?_
    · rw [timers_remove, Index.erase]
      apply List.filter_congr
      intro e _
      simp
    · have hmem := (Index.get?_eq_some_iff hr.keys).1 hk
      rw [Index.filter_key_eq_singleton hr.keys hmem]
      exact .refl _
  · have hp : ∀ e ∈ r.timers.entries, ∀ x ∈ e.2.handles,
        decide ((Logical.of e).key.client = client ∧ x = handle) = decide (x = handle) := by
      rintro ⟨j, v⟩ he x hx
      have hj := (Index.get?_eq_some_iff hr.keys).2 he
      apply decide_eq_decide.2
      refine and_iff_right_of_imp ?_
      rintro rfl
      have hjk := hr.unique hj hx hk hm
      rw [← hjk] at hc
      exact hc
    obtain ⟨hafter, hends⟩ := release_loosen hr hk hm hl
      (p := fun t h => t.key.client = client ∧ h = handle) hp
    refine ⟨⟨hr', hnext ▸ h.given, ?_, ?_⟩, [], ?_, .refl _⟩
    · change b.running.filterMap (Logical.after _) = _
      rw [h.running, hafter]
    · intro u hu
      change u ∈ b.running.filterMap (Logical.after _) at hu
      obtain ⟨u', hu', ha⟩ := List.mem_filterMap.1 hu
      rw [Logical.after] at ha
      split at ha
      · cases ha
      · cases ha
        exact h.begun u' hu'
    · change b.closed ++ (b.running.filter (Logical.ends _)).map _ = _
      rw [h.running, hends]
      rfl

theorem stop_of_unknown {client : ClientId} {handle : TimerHandle} {today : Date}
    (h : r.Mirrors b) (hs : r.stop client handle now today = none) :
    b.stop client handle = b := by
  have hr := h.coherent.toLinked
  have hp : ∀ e ∈ r.timers.entries, ∀ x ∈ e.2.handles,
      decide ((Logical.of e).key.client = client ∧ x = handle) = false := by
    rintro ⟨j, v⟩ he x hx
    have hj := (Index.get?_eq_some_iff hr.keys).2 he
    apply decide_eq_false
    rintro ⟨hc, rfl⟩
    exact stop_eq_none hr hs j v hj hc hx
  obtain ⟨hafter, hends⟩ := release_logical hr
    (p := fun t h => t.key.client = client ∧ h = handle) (q := fun _ => false) hp
  have hall : (r.timers.entries.filter fun _ => !false) = r.timers.entries :=
    List.filter_eq_self.2 fun _ _ => rfl
  have hnone : (r.timers.entries.filter fun _ => false) = [] :=
    List.filter_eq_nil_iff.2 fun _ _ => Bool.false_ne_true
  rw [hall] at hafter
  rw [hnone] at hends
  rw [Book.stop, Book.release, h.running, hafter, hends]
  change { b with running := r.logical, closed := b.closed ++ [] } = b
  rw [List.append_nil, ← h.running]

theorem increments_endAll (hr : r.timers.keys.Nodup) (now : Int64) (today : Date) (keys : List Key) :
    (r.endAll now today keys).1.Perm ((r.timers.entries.filter (·.1 ∈ keys)).map
      fun e => e.2.increment e.1 now today) := by
  induction keys generalizing r with
  | nil =>
    have hnone : r.timers.entries.filter (·.1 ∈ ([] : List Key)) = [] :=
      List.filter_eq_nil_iff.2 fun e _ => by simp
    rw [hnone]
    exact .refl _
  | cons k keys ih =>
    rw [endAll]
    split
    · next hn =>
      have hcongr : r.timers.entries.filter (·.1 ∈ k :: keys) =
          r.timers.entries.filter (·.1 ∈ keys) := by
        apply List.filter_congr
        intro e he
        simp [Index.ne_of_get?_eq_none hn e he]
      rw [hcongr]
      exact ih hr
    · next t ht =>
      have hmem := (Index.get?_eq_some_iff hr).1 ht
      have hkeys : (r.remove k t).timers.keys.Nodup := by
        rw [timers_remove, Index.keys_erase]
        exact hr.filter _
      have hperm : r.timers.entries.Perm
          ((k, t) :: r.timers.entries.filter fun e => !decide (e.1 = k)) := by
        have hp := List.filter_append_perm (fun e : Key × Running => decide (e.1 = k))
          r.timers.entries
        rw [Index.filter_key_eq_singleton hr hmem] at hp
        exact hp.symm
      have hrest : ((k, t) :: r.timers.entries.filter fun e => !decide (e.1 = k)).filter
          (·.1 ∈ k :: keys) = (k, t) :: (r.remove k t).timers.entries.filter (·.1 ∈ keys) := by
        rw [List.filter_cons_of_pos (by simp), timers_remove, Index.erase, List.filter_filter,
          List.filter_filter]
        congr 1
        apply List.filter_congr
        intro e _
        by_cases hek : e.1 = k <;> simp [hek]
      have hfilter := hperm.filter (·.1 ∈ k :: keys)
      rw [hrest] at hfilter
      have hmap := hfilter.map fun e : Key × Running => e.2.increment e.1 now today
      exact ((ih hkeys).cons _).trans hmap.symm

theorem increments_disconnect (hk : r.timers.keys.Nodup) (hl : r.Listed) (client : ClientId)
    (now : Int64) (today : Date) :
    (r.disconnect client now today).1.Perm ((r.timers.entries.filter fun e => e.1.client = client).map
      fun e => e.2.increment e.1 now today) := by
  have hi := increments_endAll (r := { r with clients := r.clients.erase client }) hk now today
    (r.owned client)
  have hcongr : r.timers.entries.filter (·.1 ∈ r.owned client) =
      r.timers.entries.filter fun e => e.1.client = client := by
    apply List.filter_congr
    intro e he
    have hs : (r.timers.get? e.1).isSome := (r.timers.get?_isSome_iff e.1).2 (List.mem_map_of_mem he)
    have ho := hl.owner client e.1
    rw [and_iff_left hs] at ho
    exact decide_eq_decide.2 ho
  dsimp only at hi
  rw [hcongr] at hi
  exact hi

theorem mirrors_disconnect (h : r.Mirrors b) (hnow : b.now = now.toInt) (hn : 0 ≤ b.now)
    (client : ClientId) :
    (r.disconnect client now b.today).2.Mirrors (b.disconnect client) ∧
      Yields (r.disconnect client now b.today).1 b (b.disconnect client) := by
  obtain ⟨hr', hnext⟩ := coherent_disconnect now b.today client h.coherent
  have hp : ∀ e ∈ r.timers.entries, ∀ x ∈ e.2.handles,
      decide ((Logical.of e).key.client = client) = decide (e.1.client = client) :=
    fun _ _ _ _ => rfl
  refine mirrors_release h hnow hn (p := fun t _ => t.key.client = client)
    (q := fun k => k.client = client) hp hr' hnext ?_ ?_
  · rw [timers_disconnect now b.today client h.coherent.toListed]
    apply List.filter_congr
    intro e _
    simp
  · exact increments_disconnect h.coherent.keys h.coherent.toListed client now b.today

theorem mirrors_drain (h : r.Mirrors b) (hnow : b.now = now.toInt) (hn : 0 ≤ b.now) :
    (r.drain now b.today).2.Mirrors b.shutdown ∧
      Yields (r.drain now b.today).1 b b.shutdown := by
  have hp : ∀ e ∈ r.timers.entries, ∀ x ∈ e.2.handles, true = true := fun _ _ _ _ => rfl
  refine mirrors_release h hnow hn (p := fun _ _ => true) (q := fun _ => true) hp
    (coherent_cleared r) rfl ?_ ?_
  · exact (List.filter_eq_nil_iff.2 fun e _ => by simp).symm
  · rw [List.filter_eq_self.2 fun e _ => rfl]
    exact .refl _

theorem mirrors_split (h : r.Mirrors b) (hnow : b.now = now.toInt) (hn : 0 ≤ b.now)
    (hday : b.seen ≠ b.today) :
    (r.split now b.seen).2.Mirrors b.rollover ∧ Yields (r.split now b.seen).1 b b.rollover := by
  rw [Book.rollover, if_neg hday]
  refine ⟨⟨coherent_split h.coherent now b.seen, h.given, ?_, ?_⟩, b.running.map
    (·.interval b.now b.seen), rfl, ?_⟩
  · change b.running.map _ = (r.split now b.seen).2.timers.entries.map Logical.of
    rw [h.running, hnow, logical, split, Index.mapValues, List.map_map, List.map_map]
    rfl
  · intro t ht
    obtain ⟨t', -, rfl⟩ := List.mem_map.1 ht
    exact hn
  · have heq : (b.running.map (·.interval b.now b.seen)).map Interval.increment =
        (r.split now b.seen).1 := by
      rw [h.running, hnow, logical, List.map_map, List.map_map]
      apply List.map_congr_left
      intro e he
      have hbegun := h.begun (Logical.of e) (by rw [h.running]; exact List.mem_map_of_mem he)
      exact (increment_eq hbegun (hnow ▸ hn) b.seen).symm
    rw [heq]

end Registry

end Telemetry.Timer

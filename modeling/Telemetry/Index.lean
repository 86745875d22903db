namespace Telemetry

/-- Entries by key. The operations below never give two entries one key. -/
structure Index (α β : Type) where
  entries : List (α × β)
  deriving DecidableEq, Repr

namespace Index

variable {α β : Type} [DecidableEq α]

def empty : Index α β := ⟨[]⟩

instance : Inhabited (Index α β) := ⟨empty⟩

def keys (x : Index α β) : List α := x.entries.map Prod.fst

def size (x : Index α β) : Nat := x.entries.length

def find (k : α) : List (α × β) → Option β
  | [] => none
  | (k', v) :: rest => if k' = k then some v else find k rest

def get? (x : Index α β) (k : α) : Option β := find k x.entries

def change (k : α) (f : Option β → β) : List (α × β) → List (α × β)
  | [] => [(k, f none)]
  | (k', v) :: rest => if k' = k then (k', f (some v)) :: rest else (k', v) :: change k f rest

/-- Puts `f` of the value held under `k`, in its place, or of none, at the end. -/
def alter (x : Index α β) (k : α) (f : Option β → β) : Index α β := ⟨change k f x.entries⟩

def insert (x : Index α β) (k : α) (v : β) : Index α β := x.alter k fun _ => v

def erase (x : Index α β) (k : α) : Index α β := ⟨x.entries.filter fun e => e.1 ≠ k⟩

def mapValues (x : Index α β) (f : α → β → β) : Index α β :=
  ⟨x.entries.map fun e => (e.1, f e.1 e.2)⟩

@[simp] theorem get?_empty (k : α) : (empty : Index α β).get? k = none := rfl

theorem find_change_self (k : α) (f : Option β → β) (es : List (α × β)) :
    find k (change k f es) = some (f (find k es)) := by
  induction es with
  | nil => simp [change, find]
  | cons e rest ih =>
    obtain ⟨k', v⟩ := e
    by_cases h : k' = k <;> simp [change, find, h, ih]

theorem find_change_ne {k j : α} (hj : j ≠ k) (f : Option β → β) (es : List (α × β)) :
    find j (change k f es) = find j es := by
  induction es with
  | nil => simp [change, find, Ne.symm hj]
  | cons e rest ih =>
    obtain ⟨k', v⟩ := e
    by_cases h : k' = k
    · subst h
      simp [change, find, Ne.symm hj]
    · by_cases h' : k' = j
      · subst h'
        simp [change, find, h]
      · simp [change, find, h, h', ih]

@[simp] theorem get?_alter_self (x : Index α β) (k : α) (f : Option β → β) :
    (x.alter k f).get? k = some (f (x.get? k)) := find_change_self k f x.entries

theorem get?_alter_ne (x : Index α β) {k j : α} (hj : j ≠ k) (f : Option β → β) :
    (x.alter k f).get? j = x.get? j := find_change_ne hj f x.entries

theorem find_erase (k j : α) (es : List (α × β)) :
    find j (es.filter fun e => e.1 ≠ k) = if j = k then none else find j es := by
  induction es with
  | nil => simp [find]
  | cons e rest ih =>
    obtain ⟨k', v⟩ := e
    by_cases h : k' = k <;> by_cases h' : k' = j <;> by_cases hjk : j = k <;>
      simp_all [find]

theorem get?_erase (x : Index α β) (k j : α) :
    (x.erase k).get? j = if j = k then none else x.get? j := find_erase k j x.entries

theorem find_filter (p : α → Bool) (k : α) (es : List (α × β)) :
    find k (es.filter fun e => p e.1) = if p k then find k es else none := by
  induction es with
  | nil => simp [find]
  | cons e rest ih =>
    obtain ⟨k', v⟩ := e
    by_cases h : k' = k <;> by_cases hp : p k' <;> simp_all [find]

theorem find_mapValues (f : α → β → β) (k : α) (es : List (α × β)) :
    find k (es.map fun e => (e.1, f e.1 e.2)) = (find k es).map (f k) := by
  induction es with
  | nil => simp [find]
  | cons e rest ih =>
    obtain ⟨k', v⟩ := e
    by_cases h : k' = k
    · subst h
      simp [find]
    · simp [find, h, ih]

theorem get?_mapValues (x : Index α β) (f : α → β → β) (k : α) :
    (x.mapValues f).get? k = (x.get? k).map (f k) := find_mapValues f k x.entries

theorem keys_change (k : α) (f : Option β → β) (es : List (α × β)) :
    (change k f es).map Prod.fst =
      if k ∈ es.map Prod.fst then es.map Prod.fst else es.map Prod.fst ++ [k] := by
  induction es with
  | nil => simp [change]
  | cons e rest ih =>
    obtain ⟨k', v⟩ := e
    by_cases h : k' = k
    · simp [change, h]
    · simp only [change, h, if_false, List.map_cons, ih, List.mem_cons, Ne.symm h, false_or]
      split <;> simp

theorem keys_alter (x : Index α β) (k : α) (f : Option β → β) :
    (x.alter k f).keys = if k ∈ x.keys then x.keys else x.keys ++ [k] :=
  keys_change k f x.entries

theorem nodup_keys_alter (x : Index α β) (k : α) (f : Option β → β) (h : x.keys.Nodup) :
    (x.alter k f).keys.Nodup := by
  rw [keys_alter]
  split
  · exact h
  · next hk =>
    rw [List.nodup_append]
    refine ⟨h, by simp, ?_⟩
    intro a ha b hb
    simp only [List.mem_singleton] at hb
    subst hb
    exact fun hab => hk (hab ▸ ha)

theorem find_isSome_iff (k : α) (es : List (α × β)) :
    (find k es).isSome ↔ k ∈ es.map Prod.fst := by
  induction es with
  | nil => simp [find]
  | cons e rest ih =>
    obtain ⟨k', v⟩ := e
    by_cases h : k' = k
    · simp [find, h]
    · simp [find, h, ih, Ne.symm h]

theorem get?_isSome_iff (x : Index α β) (k : α) : (x.get? k).isSome ↔ k ∈ x.keys :=
  find_isSome_iff k x.entries

theorem mem_of_find {k : α} {v : β} {es : List (α × β)} (h : find k es = some v) : (k, v) ∈ es := by
  induction es with
  | nil => cases h
  | cons e rest ih =>
    obtain ⟨k', v'⟩ := e
    rw [find] at h
    split at h
    · next hk =>
      cases h
      rw [hk]
      exact List.mem_cons_self
    · exact List.mem_cons_of_mem _ (ih h)

theorem mem_of_get? {x : Index α β} {k : α} {v : β} (h : x.get? k = some v) : (k, v) ∈ x.entries :=
  mem_of_find h

theorem ne_of_get?_eq_none {x : Index α β} {k : α} (h : x.get? k = none) :
    ∀ e ∈ x.entries, e.1 ≠ k := by
  intro e he hk
  have hs := (x.get?_isSome_iff k).2 (List.mem_map.2 ⟨e, he, hk⟩)
  rw [h] at hs
  cases hs

theorem get?_alter (x : Index α β) (k j : α) (f : Option β → β) :
    (x.alter k f).get? j = if j = k then some (f (x.get? k)) else x.get? j := by
  by_cases h : j = k
  · subst h
    simp
  · rw [get?_alter_ne x h, if_neg h]

theorem get?_insert (x : Index α β) (k j : α) (v : β) :
    (x.insert k v).get? j = if j = k then some v else x.get? j := x.get?_alter k j fun _ => v

theorem get?_foldl_erase (x : Index α β) (ks : List α) (j : α) :
    (ks.foldl erase x).get? j = if j ∈ ks then none else x.get? j := by
  induction ks generalizing x with
  | nil => simp
  | cons k ks ih =>
    rw [List.foldl_cons, ih, get?_erase]
    by_cases hj : j ∈ ks <;> by_cases hk : j = k <;> simp [hj, hk]

theorem keys_erase (x : Index α β) (k : α) : (x.erase k).keys = x.keys.filter (· ≠ k) := by
  simp only [erase, keys, List.filter_map]
  rfl

omit [DecidableEq α] in
theorem keys_mapValues (x : Index α β) (f : α → β → β) : (x.mapValues f).keys = x.keys := by
  simp [mapValues, keys]

theorem find_eq_some_iff {es : List (α × β)} (hes : (es.map Prod.fst).Nodup) {k : α} {v : β} :
    find k es = some v ↔ (k, v) ∈ es := by
  induction es with
  | nil => simp [find]
  | cons e rest ih =>
    obtain ⟨k', v'⟩ := e
    rw [List.map_cons, List.nodup_cons] at hes
    by_cases h : k' = k
    · subst h
      have hn : (k', v) ∉ rest := fun hm => hes.1 (List.mem_map.mpr ⟨_, hm, rfl⟩)
      simp [find, hn, eq_comm]
    · rw [find, if_neg h, ih hes.2]
      simp [Ne.symm h]

theorem get?_eq_some_iff {x : Index α β} (hx : x.keys.Nodup) {k : α} {v : β} :
    x.get? k = some v ↔ (k, v) ∈ x.entries := find_eq_some_iff hx

theorem filter_key_eq_singleton {es : List (α × β)} (hes : (es.map Prod.fst).Nodup) {k : α} {v : β}
    (h : (k, v) ∈ es) : es.filter (fun e => e.1 = k) = [(k, v)] := by
  induction es with
  | nil => cases h
  | cons e rest ih =>
    rw [List.map_cons, List.nodup_cons] at hes
    by_cases he : e.1 = k
    · have hr : rest.filter (fun e => e.1 = k) = [] := by
        rw [List.filter_eq_nil_iff]
        intro e' he' hk
        rw [decide_eq_true_eq] at hk
        exact hes.1 (List.mem_map.2 ⟨e', he', hk.trans he.symm⟩)
      have hv : e = (k, v) := by
        rcases List.mem_cons.1 h with h | h
        · exact h.symm
        · exact absurd (List.mem_map.2 ⟨_, h, he.symm⟩) hes.1
      rw [List.filter_cons_of_pos (by simpa using he), hr, hv]
    · have hm : (k, v) ∈ rest := by
        rcases List.mem_cons.1 h with h | h
        · rw [← h] at he
          exact absurd rfl he
        · exact h
      rw [List.filter_cons_of_neg (by simpa using he), ih hes.2 hm]

theorem change_of_mem {k : α} {es : List (α × β)} (hes : (es.map Prod.fst).Nodup)
    (hk : k ∈ es.map Prod.fst) (f : Option β → β) :
    change k f es = es.map fun e => if e.1 = k then (e.1, f (some e.2)) else e := by
  induction es with
  | nil => simp at hk
  | cons e rest ih =>
    obtain ⟨k', v⟩ := e
    rw [List.map_cons, List.nodup_cons] at hes
    by_cases h : k' = k
    · subst h
      have hn : ∀ e ∈ rest, (if e.1 = k' then (e.1, f (some e.2)) else e) = e := by
        intro e he
        have hne : e.1 ≠ k' := fun heq => hes.1 (List.mem_map.mpr ⟨e, he, heq⟩)
        rw [if_neg hne]
      rw [change, if_pos rfl, List.map_cons, if_pos rfl, List.map_congr_left hn, List.map_id']
    · have hr : k ∈ rest.map Prod.fst := by simpa [Ne.symm h] using hk
      rw [change, if_neg h, ih hes.2 hr, List.map_cons, if_neg h]

theorem change_of_not_mem {k : α} {es : List (α × β)} (hk : k ∉ es.map Prod.fst)
    (f : Option β → β) : change k f es = es ++ [(k, f none)] := by
  induction es with
  | nil => rfl
  | cons e rest ih =>
    obtain ⟨k', v⟩ := e
    rw [List.map_cons, List.mem_cons, not_or] at hk
    rw [change, if_neg (Ne.symm hk.1), ih hk.2, List.cons_append]

theorem change_append {k : α} {es : List (α × β)} (hk : k ∉ es.map Prod.fst) (f : Option β → β)
    (rest : List (α × β)) : change k f (es ++ rest) = es ++ change k f rest := by
  induction es with
  | nil => rfl
  | cons e es ih =>
    obtain ⟨k', v⟩ := e
    rw [List.map_cons, List.mem_cons, not_or] at hk
    rw [List.cons_append, change, if_neg (Ne.symm hk.1), ih hk.2, List.cons_append]

theorem forall_mem_change {p : α × β → Prop} {k : α} {f : Option β → β} {es : List (α × β)}
    (h : ∀ e ∈ es, p e) (hnew : p (k, f none)) (hold : ∀ v, p (k, v) → p (k, f (some v))) :
    ∀ e ∈ change k f es, p e := by
  induction es with
  | nil => simpa [change] using hnew
  | cons e es ih =>
    obtain ⟨k', v⟩ := e
    have hhead := h (k', v) List.mem_cons_self
    have htail := fun e he => h e (List.mem_cons_of_mem _ he)
    rw [change]
    split
    · next hk =>
      subst hk
      exact List.forall_mem_cons.2 ⟨hold v hhead, htail⟩
    · exact List.forall_mem_cons.2 ⟨hhead, ih htail⟩

theorem filter_change {p : α → Bool} {k : α} (hk : p k = true) (f : Option β → β)
    (es : List (α × β)) :
    (change k f es).filter (fun e => p e.1) = change k f (es.filter fun e => p e.1) := by
  induction es with
  | nil => simp [change, hk]
  | cons e rest ih =>
    obtain ⟨k', v⟩ := e
    by_cases h : k' = k
    · simp [change, h, hk]
    · by_cases hp : p k' <;> simp [change, h, hp, ih]

theorem filter_change_of_not {p : α → Bool} {k : α} (hk : p k = false) (f : Option β → β)
    (es : List (α × β)) :
    (change k f es).filter (fun e => p e.1) = es.filter fun e => p e.1 := by
  induction es with
  | nil => simp [change, hk]
  | cons e rest ih =>
    obtain ⟨k', v⟩ := e
    by_cases h : k' = k
    · simp [change, h, hk]
    · by_cases hp : p k' <;> simp [change, h, hp, ih]

theorem map_change {f f' : Option β → β} {g : β → β} (hf : ∀ o, f' (o.map g) = g (f o)) (k : α)
    (es : List (α × β)) :
    (change k f es).map (fun e => (e.1, g e.2)) = change k f' (es.map fun e => (e.1, g e.2)) := by
  induction es with
  | nil => simp [change, ← hf none]
  | cons e rest ih =>
    obtain ⟨k', v⟩ := e
    by_cases h : k' = k
    · simp [change, h, ← hf (some v)]
    · simp [change, h, ih]

end Index

end Telemetry

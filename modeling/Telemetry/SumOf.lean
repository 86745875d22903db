namespace Telemetry

variable {α β : Type}

def sumOf (measure : α → Nat) (xs : List α) : Nat := xs.foldr (fun x n => measure x + n) 0

@[simp] theorem sumOf_nil (measure : α → Nat) : sumOf measure [] = 0 := rfl

@[simp] theorem sumOf_cons (measure : α → Nat) (x : α) (xs : List α) :
    sumOf measure (x :: xs) = measure x + sumOf measure xs := rfl

@[simp] theorem sumOf_append (measure : α → Nat) (xs ys : List α) :
    sumOf measure (xs ++ ys) = sumOf measure xs + sumOf measure ys := by
  induction xs with
  | nil => simp
  | cons x xs ih => simp [ih, Nat.add_assoc]

theorem sumOf_map (measure : β → Nat) (f : α → β) (xs : List α) :
    sumOf measure (xs.map f) = sumOf (fun x => measure (f x)) xs := by
  induction xs with
  | nil => rfl
  | cons x xs ih => simp [ih]

theorem sumOf_eq_zero {measure : α → Nat} {xs : List α} (h : ∀ x ∈ xs, measure x = 0) :
    sumOf measure xs = 0 := by
  induction xs with
  | nil => rfl
  | cons x xs ih =>
    have hxs := ih fun y hy => h y (List.mem_cons_of_mem x hy)
    rw [sumOf_cons, h x List.mem_cons_self, hxs]

theorem le_sumOf (measure : α → Nat) {x : α} {xs : List α} (h : x ∈ xs) :
    measure x ≤ sumOf measure xs := by
  induction xs with
  | nil => cases h
  | cons y ys ih =>
    rw [sumOf_cons]
    rcases List.mem_cons.1 h with rfl | h
    · exact Nat.le_add_right _ _
    · exact Nat.le_trans (ih h) (Nat.le_add_left _ _)

theorem sumOf_le_of_sublist (measure : α → Nat) {xs ys : List α} (h : xs.Sublist ys) :
    sumOf measure xs ≤ sumOf measure ys := by
  induction h with
  | slnil => exact Nat.le_refl 0
  | cons y _ ih => exact Nat.le_trans ih (Nat.le_add_left _ _)
  | cons_cons x _ ih => exact Nat.add_le_add_left ih _

theorem sumOf_mono {f g : α → Nat} {xs : List α} (h : ∀ x ∈ xs, f x ≤ g x) :
    sumOf f xs ≤ sumOf g xs := by
  induction xs with
  | nil => exact Nat.le_refl 0
  | cons x xs ih =>
    have hx := h x List.mem_cons_self
    have hxs := ih fun y hy => h y (List.mem_cons_of_mem x hy)
    exact Nat.add_le_add hx hxs

theorem sumOf_congr {f g : α → Nat} {xs : List α} (h : ∀ x ∈ xs, f x = g x) :
    sumOf f xs = sumOf g xs := by
  apply Nat.le_antisymm
  · exact sumOf_mono fun x hx => Nat.le_of_eq (h x hx)
  · exact sumOf_mono fun x hx => Nat.le_of_eq (h x hx).symm

theorem length_le_sumOf {measure : α → Nat} {xs : List α} (h : ∀ x ∈ xs, 0 < measure x) :
    xs.length ≤ sumOf measure xs := by
  induction xs with
  | nil => exact Nat.le_refl 0
  | cons x xs ih =>
    have hx := h x List.mem_cons_self
    have hxs := ih fun y hy => h y (List.mem_cons_of_mem x hy)
    rw [List.length_cons, sumOf_cons]
    omega

theorem sumOf_add (f g : α → Nat) (xs : List α) :
    sumOf (fun x => f x + g x) xs = sumOf f xs + sumOf g xs := by
  induction xs with
  | nil => rfl
  | cons x xs ih =>
    simp only [sumOf_cons, ih]
    omega

theorem sumOf_filter (measure : α → Nat) (p : α → Bool) (xs : List α) :
    sumOf measure (xs.filter p) = sumOf (fun x => if p x then measure x else 0) xs := by
  induction xs with
  | nil => rfl
  | cons x xs ih =>
    rw [List.filter_cons, sumOf_cons, ← ih]
    split
    · rfl
    · exact (Nat.zero_add _).symm

theorem sumOf_const (n : Nat) (xs : List α) : sumOf (fun _ => n) xs = xs.length * n := by
  induction xs with
  | nil => exact (Nat.zero_mul n).symm
  | cons x xs ih => rw [sumOf_cons, ih, List.length_cons, Nat.succ_mul, Nat.add_comm]

theorem sumOf_ite_eq [DecidableEq α] {xs : List α} (hxs : xs.Nodup) (a : α) (n : Nat) :
    sumOf (fun x => if a = x then n else 0) xs = if a ∈ xs then n else 0 := by
  induction xs with
  | nil => rfl
  | cons x xs ih =>
    rw [List.nodup_cons] at hxs
    rw [sumOf_cons, ih hxs.2]
    by_cases ha : a = x
    · subst ha
      simp [hxs.1]
    · simp [ha]

theorem sumOf_perm (measure : α → Nat) {xs ys : List α} (h : xs.Perm ys) :
    sumOf measure xs = sumOf measure ys := by
  induction h with
  | nil => rfl
  | cons x _ ih => rw [sumOf_cons, sumOf_cons, ih]
  | swap x y xs =>
    simp only [sumOf_cons]
    omega
  | trans _ _ ih ih' => exact ih.trans ih'

theorem length_flatMap_eq_sumOf (f : α → List β) (xs : List α) :
    (xs.flatMap f).length = sumOf (fun x => (f x).length) xs := by
  induction xs with
  | nil => rfl
  | cons x xs ih => simp [ih]

end Telemetry

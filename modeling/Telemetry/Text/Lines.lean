namespace Telemetry.Text

/-- The pieces between line feeds, one more than there are line feeds. -/
def lines : List Char → List (List Char)
  | [] => [[]]
  | c :: rest =>
    if c = '\n' then [] :: lines rest
    else match lines rest with
      | [] => [[c]]
      | line :: more => (c :: line) :: more

def splitAt? (mark : Char) : List Char → Option (List Char × List Char)
  | [] => none
  | c :: rest =>
    if c = mark then some ([], rest)
    else (splitAt? mark rest).map fun (before, after) => (c :: before, after)

theorem lines_append {line : List Char} (h : '\n' ∉ line) (rest : List Char) :
    lines (line ++ '\n' :: rest) = line :: lines rest := by
  induction line with
  | nil => rw [List.nil_append, lines, if_pos rfl]
  | cons c line ih =>
    have hc : c ≠ '\n' := fun hc => h (hc ▸ List.mem_cons_self)
    rw [List.cons_append, lines, if_neg hc, ih fun hl => h (List.mem_cons_of_mem c hl)]

theorem not_mem_of_mem_lines {s line : List Char} (h : line ∈ lines s) : '\n' ∉ line := by
  induction s generalizing line with
  | nil =>
    rw [lines, List.mem_singleton] at h
    simp [h]
  | cons c rest ih =>
    unfold lines at h
    split at h
    · rcases List.mem_cons.1 h with rfl | h
      · simp
      · exact ih h
    · next hc =>
      split at h
      · rw [List.mem_singleton] at h
        simp [h, Ne.symm hc]
      · next first more hlines =>
        rw [hlines] at ih
        rcases List.mem_cons.1 h with rfl | h
        · simp [Ne.symm hc, ih List.mem_cons_self]
        · exact ih (List.mem_cons_of_mem _ h)

theorem splitAt?_append {mark : Char} {before : List Char} (h : mark ∉ before)
    (after : List Char) : splitAt? mark (before ++ mark :: after) = some (before, after) := by
  induction before with
  | nil => rw [List.nil_append, splitAt?, if_pos rfl]
  | cons c before ih =>
    have hc : c ≠ mark := fun hc => h (hc ▸ List.mem_cons_self)
    rw [List.cons_append, splitAt?, if_neg hc, ih fun hb => h (List.mem_cons_of_mem c hb)]
    rfl

theorem splitAt?_eq_some {mark : Char} {s before after : List Char}
    (h : splitAt? mark s = some (before, after)) :
    s = before ++ mark :: after ∧ mark ∉ before := by
  induction s generalizing before with
  | nil => simp [splitAt?] at h
  | cons c rest ih =>
    unfold splitAt? at h
    split at h
    · next hc =>
      simp only [Option.some.injEq, Prod.mk.injEq] at h
      obtain ⟨rfl, rfl⟩ := h
      simp [hc]
    · next hc =>
      simp only [Option.map_eq_some_iff, Prod.mk.injEq, Prod.exists] at h
      obtain ⟨b, a, hba, rfl, rfl⟩ := h
      obtain ⟨rfl, hm⟩ := ih hba
      exact ⟨rfl, by simp [hm, Ne.symm hc]⟩

theorem splitAt?_eq_none_iff {mark : Char} {s : List Char} : splitAt? mark s = none ↔ mark ∉ s := by
  induction s with
  | nil => simp [splitAt?]
  | cons c rest ih =>
    unfold splitAt?
    split
    · next hc => simp [hc]
    · next hc => simp [ih, Ne.symm hc]

end Telemetry.Text

namespace Telemetry.Text

def blanks : List Char :=
  ['\x09', '\x0a', '\x0b', '\x0c', '\x0d', ' ', '\u0085', '\u00a0', '\u1680', '\u2000', '\u2001',
   '\u2002', '\u2003', '\u2004', '\u2005', '\u2006', '\u2007', '\u2008', '\u2009', '\u200a',
   '\u2028', '\u2029', '\u202f', '\u205f', '\u3000']

def isBlank (c : Char) : Bool := blanks.contains c

def trimStart (s : List Char) : List Char := s.dropWhile isBlank

def trimEnd (s : List Char) : List Char := (s.reverse.dropWhile isBlank).reverse

def trim (s : List Char) : List Char := trimEnd (trimStart s)

theorem isBlank_of_isDigit {c : Char} (h : c.isDigit = true) : isBlank c = false := by
  have hnone : blanks.all (fun b => !b.isDigit) = true := by decide
  rw [isBlank, List.contains_eq_mem, decide_eq_false_iff_not]
  intro hb
  have hc := List.all_eq_true.1 hnone c hb
  rw [h] at hc
  cases hc

theorem trimStart_eq_self_of_head? {s : List Char}
    (h : ∀ c, s.head? = some c → isBlank c = false) : trimStart s = s := by
  cases s with
  | nil => rfl
  | cons c s => exact List.dropWhile_cons_of_neg (by simp [h c rfl])

theorem trimStart_eq_self {s : List Char} (h : ∀ c ∈ s, isBlank c = false) : trimStart s = s :=
  trimStart_eq_self_of_head? fun c hc => h c (List.mem_of_head? hc)

theorem trim_eq_self {s : List Char} (h : ∀ c ∈ s, isBlank c = false) : trim s = s := by
  have hback : trimStart s.reverse = s.reverse :=
    trimStart_eq_self fun c hc => h c (List.mem_reverse.1 hc)
  rw [trim, trimStart_eq_self h, trimEnd]
  change (trimStart s.reverse).reverse = s
  rw [hback, List.reverse_reverse]

theorem mem_of_mem_trim {s : List Char} {c : Char} (h : c ∈ trim s) : c ∈ s := by
  rw [trim, trimEnd, List.mem_reverse] at h
  have hback := (List.dropWhile_sublist isBlank).subset h
  rw [List.mem_reverse] at hback
  exact (List.dropWhile_sublist isBlank).subset hback

theorem trim_append_eq (s : List Char) : ∃ blank, trim s ++ blank = trimStart s := by
  obtain ⟨blank, hblank⟩ := List.dropWhile_suffix (l := (trimStart s).reverse) isBlank
  refine ⟨blank.reverse, ?_⟩
  rw [trim, trimEnd, ← List.reverse_append, hblank, List.reverse_reverse]

theorem isBlank_of_head?_trimStart {s : List Char} {c : Char}
    (h : (trimStart s).head? = some c) : isBlank c = false := by
  have hhead := List.head?_dropWhile_not isBlank s
  rw [trimStart] at h
  rw [h] at hhead
  exact hhead

theorem isBlank_of_head?_trim {s : List Char} {c : Char} (h : (trim s).head? = some c) :
    isBlank c = false := by
  obtain ⟨blank, hblank⟩ := trim_append_eq s
  apply isBlank_of_head?_trimStart (s := s)
  rw [← hblank, List.head?_append, h]
  rfl

theorem isBlank_of_getLast?_trim {s : List Char} {c : Char} (h : (trim s).getLast? = some c) :
    isBlank c = false := by
  rw [trim, trimEnd, List.getLast?_reverse] at h
  exact isBlank_of_head?_trimStart h

theorem trim_eq_self_iff {s : List Char} : trim s = s ↔
    (∀ c, s.head? = some c → isBlank c = false) ∧ ∀ c, s.getLast? = some c → isBlank c = false := by
  constructor
  · intro h
    rw [← h]
    exact ⟨fun c => isBlank_of_head?_trim, fun c => isBlank_of_getLast?_trim⟩
  · rintro ⟨hhead, hlast⟩
    rw [← List.head?_reverse] at hlast
    rw [trim, trimStart_eq_self_of_head? hhead, trimEnd]
    change (trimStart s.reverse).reverse = s
    rw [trimStart_eq_self_of_head? hlast, List.reverse_reverse]

@[simp] theorem trim_trim (s : List Char) : trim (trim s) = trim s :=
  trim_eq_self_iff.2 ⟨fun _ => isBlank_of_head?_trim, fun _ => isBlank_of_getLast?_trim⟩

theorem head?_of_head?_trim {s : List Char} {c : Char}
    (hs : ∀ c, s.head? = some c → isBlank c = false) (h : (trim s).head? = some c) :
    s.head? = some c := by
  obtain ⟨blank, hblank⟩ := trim_append_eq s
  rw [← trimStart_eq_self_of_head? hs, ← hblank, List.head?_append, h]
  rfl

end Telemetry.Text

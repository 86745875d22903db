import Mathlib.Data.List.Induction
import Telemetry.KeyFile.Parser

namespace Telemetry

/-- The members of a list are the things that occur, each once and in the order of their first
occurrence. -/
structure Appearing {α : Type} (occurs : Nat → α → Prop) (xs : List α) : Prop where
  nodup : xs.Nodup
  mem : ∀ a, a ∈ xs ↔ ∃ i, occurs i a
  order : xs.Pairwise fun a b => ∃ i, occurs i a ∧ ∀ j ≤ i, ¬occurs j b

theorem Appearing.concat {α : Type} [DecidableEq α] {occurs occurs' : Nat → α → Prop} {xs : List α}
    {n : Nat} {a : α} (h : Appearing occurs xs) (hbelow : ∀ i b, occurs i b → i < n)
    (hnext : ∀ i b, occurs' i b ↔ occurs i b ∨ i = n ∧ b = a) :
    Appearing occurs' (if a ∈ xs then xs else xs ++ [a]) := by
  have hold : xs.Pairwise fun a b => ∃ i, occurs' i a ∧ ∀ j ≤ i, ¬occurs' j b := by
    refine h.order.imp ?_
    rintro b c ⟨i, hi, hnone⟩
    refine ⟨i, (hnext i b).2 (.inl hi), fun j hj hc => ?_⟩
    rcases (hnext j c).1 hc with hc | ⟨rfl, -⟩
    · exact hnone j hj hc
    · exact absurd (hbelow i b hi) (Nat.not_lt.2 hj)
  have hmem (b : α) : (∃ i, occurs' i b) ↔ b ∈ xs ∨ b = a := by
    simp only [hnext, exists_or, h.mem]
    simp
  split
  · next ha =>
    refine ⟨h.nodup, fun b => ?_, hold⟩
    rw [hmem, or_iff_left_of_imp]
    rintro rfl
    exact ha
  · next ha =>
    refine ⟨?_, fun b => by rw [hmem]; simp, ?_⟩
    · rw [List.nodup_append]
      refine ⟨h.nodup, by simp, fun b hb c hc hbc => ha ?_⟩
      rw [← List.mem_singleton.1 hc, ← hbc]
      exact hb
    · rw [List.pairwise_append]
      refine ⟨hold, List.pairwise_singleton _ a, fun b hb c hc => ?_⟩
      rw [List.mem_singleton.1 hc]
      obtain ⟨i, hi⟩ := (h.mem b).1 hb
      refine ⟨i, (hnext i b).2 (.inl hi), fun j hj hja => ?_⟩
      rcases (hnext j a).1 hja with hja | ⟨rfl, -⟩
      · exact ha ((h.mem a).2 ⟨j, hja⟩)
      · exact absurd (hbelow i b hi) (Nat.not_lt.2 hj)

namespace KeyFile

open Text

def trimmed (text : List Char) : List (List Char) := (lines text).map trim

/-- Blank, or a comment. -/
def Skipped (line : List Char) : Prop :=
  line = [] ∨ line.head? = some '#' ∨ line.head? = some ';'

/-- The name of a group in brackets. -/
def Heads (line group : List Char) : Prop :=
  ∃ name, line = '[' :: name ++ [']'] ∧ trim name = group

/-- A key and its value on the two sides of the first equals sign. -/
def Assigns (line key value : List Char) : Prop :=
  ¬Skipped line ∧ line.head? ≠ some '[' ∧
    ∃ before after, line = before ++ '=' :: after ∧ '=' ∉ before ∧
      trim before = key ∧ trim after = value

/-- The line with a number, counted from zero, has a property. -/
def At (p : List Char → Prop) (ls : List (List Char)) (i : Nat) : Prop :=
  ∃ line, ls[i]? = some line ∧ p line

/-- The nearest header above a line is that of the group. -/
def Under (ls : List (List Char)) (i : Nat) (group : List Char) : Prop :=
  ∃ h < i, At (Heads · group) ls h ∧ ∀ j, h < j → j < i → ∀ g, ¬At (Heads · g) ls j

/-- A line gives a key of a group its value. -/
def Sets (ls : List (List Char)) (i : Nat) (group key value : List Char) : Prop :=
  Under ls i group ∧ At (Assigns · key value) ls i

/-- A line cannot be read, below some header or not: it opens a bracket and does not close it, or it
should be an assignment and has no equals sign or no header above it. -/
def Unreadable (headed : Prop) (line : List Char) : Prop :=
  ¬Skipped line ∧
    (line.head? = some '[' ∧ line.getLast? ≠ some ']' ∨
      line.head? ≠ some '[' ∧ ('=' ∉ line ∨ ¬headed))

def Offends (ls : List (List Char)) (i : Nat) : Prop :=
  At (Unreadable (∃ h < i, ∃ g, At (Heads · g) ls h)) ls i

def Line.Describes (line : List Char) : Line → Prop
  | ignored => Skipped line
  | header name => Heads line name
  | assignment key value => Assigns line key value
  | unterminated => line.head? = some '[' ∧ line.getLast? ≠ some ']'
  | noEquals => ¬Skipped line ∧ line.head? ≠ some '[' ∧ '=' ∉ line

section Lines

variable {line : List Char}

theorem beforeBracket?_eq_some_iff {s name : List Char} :
    beforeBracket? s = some name ↔ s = name ++ [']'] := by
  rw [beforeBracket?]
  split
  · next before h =>
    rw [List.reverse_eq_cons_iff] at h
    simp [h]
  · next h =>
    refine iff_of_false (by simp) ?_
    rintro rfl
    exact h name.reverse (by simp)

theorem Line.describes_ofTrimmed (line : List Char) : Describes line (ofTrimmed line) := by
  unfold ofTrimmed
  split
  · exact .inl rfl
  · exact .inr (.inl rfl)
  · exact .inr (.inr rfl)
  · next rest =>
    split
    · next name h => exact ⟨name, by rw [beforeBracket?_eq_some_iff.1 h]; rfl, rfl⟩
    · next h =>
      refine ⟨rfl, fun hlast => ?_⟩
      rcases List.eq_nil_or_concat rest with rfl | ⟨name, c, rfl⟩
      · simp at hlast
      · rw [List.concat_eq_append, ← List.cons_append, List.getLast?_concat,
          Option.some_inj] at hlast
        subst hlast
        rw [List.concat_eq_append, beforeBracket?_eq_some_iff.2 rfl] at h
        cases h
  · next hnil hhash hsemi hopen =>
    have hhead {c : Char} (hc : ∀ rest, line = c :: rest → False) : line.head? ≠ some c := by
      intro h
      obtain ⟨rest, rfl⟩ := List.head?_eq_some_iff.1 h
      exact hc rest rfl
    have hskip : ¬Skipped line := by
      rintro (h | h | h)
      · exact hnil h
      · exact hhead hhash h
      · exact hhead hsemi h
    split
    · next key value h =>
      exact ⟨hskip, hhead hopen, key, value, (splitAt?_eq_some h).1,
        (splitAt?_eq_some h).2, rfl, rfl⟩
    · next h => exact ⟨hskip, hhead hopen, splitAt?_eq_none_iff.1 h⟩

theorem Line.ofTrimmed_eq_splitAt (hskip : ¬Skipped line) (hopen : line.head? ≠ some '[') :
    ofTrimmed line = match splitAt? '=' line with
      | some (key, value) => .assignment (trim key) (trim value)
      | none => .noEquals := by
  unfold ofTrimmed
  split
  · exact absurd (.inl rfl) hskip
  · exact absurd (.inr (.inl rfl)) hskip
  · exact absurd (.inr (.inr rfl)) hskip
  · exact absurd rfl hopen
  · rfl

theorem Line.ofTrimmed_cons_bracket (rest : List Char) :
    ofTrimmed ('[' :: rest) = match beforeBracket? rest with
      | some name => .header (trim name)
      | none => .unterminated := rfl

theorem Line.Describes.ofTrimmed_eq {kind : Line} (h : kind.Describes line) :
    ofTrimmed line = kind := by
  cases kind with
  | ignored =>
    obtain rfl | h | h := h
    · rfl
    · obtain ⟨rest, rfl⟩ := List.head?_eq_some_iff.1 h
      rfl
    · obtain ⟨rest, rfl⟩ := List.head?_eq_some_iff.1 h
      rfl
  | header group =>
    obtain ⟨name, rfl, rfl⟩ := h
    rw [List.cons_append, ofTrimmed_cons_bracket, beforeBracket?_eq_some_iff.2 rfl]
  | assignment key value =>
    obtain ⟨hskip, hopen, before, after, rfl, hbefore, rfl, rfl⟩ := h
    rw [ofTrimmed_eq_splitAt hskip hopen, splitAt?_append hbefore]
  | unterminated =>
    obtain ⟨hhead, hlast⟩ := h
    obtain ⟨rest, rfl⟩ := List.head?_eq_some_iff.1 hhead
    have hnone : beforeBracket? rest = none := by
      rw [Option.eq_none_iff_forall_ne_some]
      intro name hname
      rw [beforeBracket?_eq_some_iff] at hname
      rw [hname, ← List.cons_append, List.getLast?_concat] at hlast
      exact hlast rfl
    rw [ofTrimmed_cons_bracket, hnone]
  | noEquals =>
    obtain ⟨hskip, hopen, hmark⟩ := h
    rw [ofTrimmed_eq_splitAt hskip hopen, splitAt?_eq_none_iff.2 hmark]

/-- The kind of a line is the one that describes it. -/
theorem Line.describes_iff {kind : Line} : kind.Describes line ↔ ofTrimmed line = kind :=
  ⟨Describes.ofTrimmed_eq, fun h => h ▸ describes_ofTrimmed line⟩

theorem heads_iff {group : List Char} : Heads line group ↔ Line.ofTrimmed line = .header group :=
  show Line.Describes line (.header group) ↔ _ from Line.describes_iff

theorem assigns_iff {key value : List Char} :
    Assigns line key value ↔ Line.ofTrimmed line = .assignment key value :=
  show Line.Describes line (.assignment key value) ↔ _ from Line.describes_iff

end Lines

section At

variable {p : List Char → Prop} {ls : List (List Char)} {line : List Char} {i : Nat}
  {group key value : List Char}

theorem At.lt (h : At p ls i) : i < ls.length := by
  obtain ⟨line, hline, -⟩ := h
  exact (List.getElem?_eq_some_iff.1 hline).1

theorem at_concat : At p (ls ++ [line]) i ↔ At p ls i ∨ i = ls.length ∧ p line := by
  constructor
  · rintro ⟨l, hl, hp⟩
    rw [List.getElem?_append] at hl
    split at hl
    · exact .inl ⟨l, hl, hp⟩
    · next hi =>
      have hi' : i - ls.length < 1 := (List.getElem?_eq_some_iff.1 hl).1
      have heq : i = ls.length := by omega
      subst heq
      rw [Nat.sub_self] at hl
      cases hl
      exact .inr ⟨rfl, hp⟩
  · rintro (h | ⟨rfl, hp⟩)
    · obtain ⟨l, hl, hp⟩ := h
      exact ⟨l, (List.getElem?_append_left (List.getElem?_eq_some_iff.1 hl).1).trans hl, hp⟩
    · exact ⟨line, List.getElem?_concat_length, hp⟩

theorem at_concat_of_lt (h : i < ls.length) : At p (ls ++ [line]) i ↔ At p ls i := by
  rw [at_concat, or_iff_left]
  rintro ⟨rfl, -⟩
  exact Nat.lt_irrefl _ h

theorem under_concat_of_le (h : i ≤ ls.length) :
    Under (ls ++ [line]) i group ↔ Under ls i group := by
  apply exists_congr
  intro a
  refine and_congr_right fun ha => and_congr (at_concat_of_lt (by omega)) ?_
  refine forall_congr' fun j => imp_congr_right fun _ => forall_congr' fun hj => ?_
  simp only [at_concat_of_lt (show j < ls.length by omega)]

theorem under_succ : Under (ls ++ [line]) (ls.length + 1) group ↔
    Heads line group ∨ (∀ g, ¬Heads line g) ∧ Under ls ls.length group := by
  constructor
  · rintro ⟨a, ha, hhead, hnone⟩
    rcases at_concat.1 hhead with hold | ⟨rfl, hline⟩
    · have hlt := hold.lt
      have hline : ∀ g, ¬Heads line g := fun g hg =>
        hnone ls.length hlt (Nat.lt_succ_self _) g (at_concat.2 (.inr ⟨rfl, hg⟩))
      refine .inr ⟨hline, a, hlt, hold, fun j haj hj g hg => ?_⟩
      exact hnone j haj (by omega) g ((at_concat_of_lt hj).2 hg)
    · exact .inl hline
  · rintro (hline | ⟨hline, a, ha, hhead, hnone⟩)
    · exact ⟨ls.length, Nat.lt_succ_self _, at_concat.2 (.inr ⟨rfl, hline⟩),
        fun j hj hj' => absurd hj (by omega)⟩
    · refine ⟨a, by omega, (at_concat_of_lt ha).2 hhead, fun j haj hj g hg => ?_⟩
      rcases at_concat.1 hg with hg | ⟨-, hg⟩
      · exact hnone j haj hg.lt g hg
      · exact hline g hg

theorem sets_concat : Sets (ls ++ [line]) i group key value ↔
    Sets ls i group key value ∨
      i = ls.length ∧ Under ls ls.length group ∧ Assigns line key value := by
  constructor
  · rintro ⟨hunder, hat⟩
    rcases at_concat.1 hat with hat | ⟨rfl, hline⟩
    · exact .inl ⟨(under_concat_of_le (Nat.le_of_lt hat.lt)).1 hunder, hat⟩
    · exact .inr ⟨rfl, (under_concat_of_le (Nat.le_refl _)).1 hunder, hline⟩
  · rintro (⟨hunder, hat⟩ | ⟨rfl, hunder, hline⟩)
    · exact ⟨(under_concat_of_le (Nat.le_of_lt hat.lt)).2 hunder, (at_concat_of_lt hat.lt).2 hat⟩
    · exact ⟨(under_concat_of_le (Nat.le_refl _)).2 hunder, at_concat.2 (.inr ⟨rfl, hline⟩)⟩

theorem exists_under_iff :
    (∃ g, Under ls ls.length g) ↔ ∃ h < ls.length, ∃ g, At (Heads · g) ls h := by
  constructor
  · rintro ⟨g, h, hh, hhead, -⟩
    exact ⟨h, hh, g, hhead⟩
  · rintro ⟨h, -, g, hhead⟩
    induction ls using List.reverseRecOn with
    | nil => exact absurd hhead.lt (Nat.not_lt_zero h)
    | append_singleton ls line ih =>
      rw [List.length_append, List.length_singleton]
      simp only [under_succ]
      by_cases hline : ∃ g', Heads line g'
      · obtain ⟨g', hline⟩ := hline
        exact ⟨g', .inl hline⟩
      · rw [not_exists] at hline
        rcases at_concat.1 hhead with hhead | ⟨-, hhead⟩
        · obtain ⟨g', hunder⟩ := ih hhead
          exact ⟨g', .inr ⟨hline, hunder⟩⟩
        · exact absurd hhead (hline g)

theorem offends_concat : Offends (ls ++ [line]) i ↔
    Offends ls i ∨ i = ls.length ∧ Unreadable (∃ g, Under ls ls.length g) line := by
  have hheaded (hi : i ≤ ls.length) : (∃ h < i, ∃ g, At (Heads · g) (ls ++ [line]) h) ↔
      ∃ h < i, ∃ g, At (Heads · g) ls h := by
    refine exists_congr fun h => and_congr_right fun hh => exists_congr fun g => ?_
    exact at_concat_of_lt (by omega)
  rw [exists_under_iff]
  constructor
  · intro h
    rcases at_concat.1 h with hold | ⟨rfl, hline⟩
    · rw [hheaded (Nat.le_of_lt hold.lt)] at hold
      exact .inl hold
    · rw [hheaded (Nat.le_refl _)] at hline
      exact .inr ⟨rfl, hline⟩
  · rintro (hold | ⟨rfl, hline⟩)
    · rw [Offends, hheaded (Nat.le_of_lt hold.lt)]
      exact at_concat.2 (.inl hold)
    · rw [Offends, hheaded (Nat.le_refl _)]
      exact at_concat.2 (.inr ⟨rfl, hline⟩)

end At

/-- A reading that came to the end of some lines tells what they say. -/
structure Tells (ls : List (List Char)) (r : Reading) : Prop where
  group : ∀ g, r.group = some g ↔ Under ls ls.length g
  readable : ∀ i, ¬Offends ls i
  value : ∀ g k v, r.file.get g k = some v ↔
    ∃ i, Sets ls i g k v ∧ ∀ j, i < j → ∀ v', ¬Sets ls j g k v'
  groups : Appearing (fun i g => At (Heads · g) ls i) r.file.groups.keys
  keys : ∀ g es, r.file.groups.get? g = some es → Appearing (fun i k => ∃ v, Sets ls i g k v) es.keys

section Step

variable {ls : List (List Char)} {line : List Char} {r r' : Reading}

theorem Reading.step_eq_ok {line : Line} (h : r.step line = .ok r') :
    line = .ignored ∧ r' = r ∨
      (∃ name, line = .header name ∧ r' = ⟨r.file.openGroup name, some name⟩) ∨
      ∃ group key value, line = .assignment key value ∧ r.group = some group ∧
        r' = { r with file := r.file.set group key value } := by
  cases line with
  | ignored =>
    cases h
    exact .inl ⟨rfl, rfl⟩
  | header name =>
    cases h
    exact .inr (.inl ⟨name, rfl, rfl⟩)
  | assignment key value =>
    rw [step] at h
    split at h
    · cases h
    · next group hgroup =>
      cases h
      exact .inr (.inr ⟨group, key, value, rfl, hgroup, rfl⟩)
  | unterminated => cases h
  | noEquals =>
    rw [step] at h
    split at h <;> cases h

theorem step_eq_error_iff : (∃ fault, r.step (Line.ofTrimmed line) = .error fault) ↔
    Unreadable (∃ g, r.group = some g) line := by
  have hkind := Line.describes_ofTrimmed line
  cases hk : Line.ofTrimmed line with
  | ignored =>
    rw [hk] at hkind
    simp [Reading.step, Unreadable, show Skipped line from hkind]
  | header name =>
    rw [hk] at hkind
    obtain ⟨name, rfl, rfl⟩ := hkind
    have hlast : ('[' :: (name ++ [']'])).getLast? = some ']' := by
      rw [← List.cons_append, List.getLast?_concat]
    simp [Reading.step, Unreadable, hlast]
  | assignment key value =>
    rw [hk] at hkind
    obtain ⟨hskip, hopen, before, after, hline, -⟩ := hkind
    have hmark : '=' ∈ line := by simp [hline]
    cases hg : r.group <;> simp [Reading.step, Unreadable, hskip, hopen, hmark, hg]
  | unterminated =>
    rw [hk] at hkind
    obtain ⟨hhead, hlast⟩ := hkind
    have hskip : ¬Skipped line := by
      obtain ⟨rest, rfl⟩ := List.head?_eq_some_iff.1 hhead
      simp [Skipped]
    simp [Reading.step, Unreadable, hskip, hhead, hlast]
  | noEquals =>
    rw [hk] at hkind
    obtain ⟨hskip, hopen, hmark⟩ := hkind
    cases hg : r.group <;> simp [Reading.step, Unreadable, hskip, hopen, hmark, hg]

theorem Tells.mem_groups (h : Tells ls r) {i : Nat} {g : List Char} (hu : Under ls i g) :
    g ∈ r.file.groups.keys := by
  obtain ⟨j, -, hhead, -⟩ := hu
  exact (h.groups.mem g).2 ⟨j, hhead⟩

theorem tells_nil : Tells [] ⟨empty, none⟩ := by
  have hat (p : List Char → Prop) (i : Nat) : ¬At p [] i := fun h => Nat.not_lt_zero i h.lt
  have hnone : ∀ i g, ¬Under [] i g := fun i g ⟨j, _, hhead, _⟩ => hat _ j hhead
  refine ⟨fun g => ?_, fun i => hat _ i, fun g k v => ?_, ?_, fun g es hes => nomatch hes⟩
  · simp [hnone]
  · simp [Sets, hnone, get, empty]
  · exact ⟨List.nodup_nil, fun g => by simp [hat, empty, Index.empty, Index.keys], .nil⟩

theorem Tells.quiet (h : Tells ls r) (hread : ∀ i, ¬Offends (ls ++ [line]) i)
    (hheads : ∀ g, ¬Heads line g) (hassigns : ∀ k v, ¬Assigns line k v) :
    Tells (ls ++ [line]) r := by
  have hsets : ∀ i g k v, Sets (ls ++ [line]) i g k v ↔ Sets ls i g k v := by
    simp [sets_concat, hassigns]
  refine ⟨fun g => ?_, hread, ?_, ?_, ?_⟩
  · rw [List.length_append, List.length_singleton, under_succ, h.group]
    simp [hheads]
  · simpa only [hsets] using h.value
  · simpa only [at_concat, hheads, and_false, or_false] using h.groups
  · simpa only [hsets] using h.keys

theorem Tells.header (h : Tells ls r) (hread : ∀ i, ¬Offends (ls ++ [line]) i) {name : List Char}
    (hk : Line.ofTrimmed line = .header name) :
    Tells (ls ++ [line]) ⟨r.file.openGroup name, some name⟩ := by
  have hheads (g : List Char) : Heads line g ↔ g = name := by
    rw [heads_iff, hk, Line.header.injEq, eq_comm]
  have hsets : ∀ i g k v, Sets (ls ++ [line]) i g k v ↔ Sets ls i g k v := by
    simp [sets_concat, assigns_iff, hk]
  refine ⟨fun g => ?_, hread, fun g k v => ?_, ?_, fun g es hes => ?_⟩
  · rw [List.length_append, List.length_singleton, under_succ]
    simp [hheads, eq_comm]
  · rw [get_openGroup, h.value]
    simp only [hsets]
  · rw [openGroup, Index.keys_alter]
    refine h.groups.concat (fun i g hat => hat.lt) fun i g => ?_
    rw [at_concat, hheads]
  · simp only [hsets]
    rw [openGroup, Index.get?_alter] at hes
    split at hes
    · next hg =>
      subst hg
      cases hget : r.file.groups.get? g with
      | some es₀ =>
        rw [hget] at hes
        cases hes
        exact h.keys g es₀ hget
      | none =>
        rw [hget] at hes
        cases hes
        have hfresh : ∀ i k v, ¬Sets ls i g k v := by
          rintro i k v ⟨hu, -⟩
          have hs := (Index.get?_isSome_iff _ g).2 (h.mem_groups hu)
          rw [hget] at hs
          cases hs
        exact ⟨List.nodup_nil, fun k => by simp [hfresh, Index.empty, Index.keys], .nil⟩
    · exact h.keys g es hes

theorem Tells.assignment (h : Tells ls r) (hread : ∀ i, ¬Offends (ls ++ [line]) i)
    {group key value : List Char} (hgroup : r.group = some group)
    (hk : Line.ofTrimmed line = .assignment key value) :
    Tells (ls ++ [line]) { r with file := r.file.set group key value } := by
  have hheads : ∀ g, ¬Heads line g := by simp [heads_iff, hk]
  have hsets (i : Nat) (g k v : List Char) : Sets (ls ++ [line]) i g k v ↔
      Sets ls i g k v ∨ i = ls.length ∧ g = group ∧ k = key ∧ v = value := by
    rw [sets_concat, ← h.group, hgroup, assigns_iff, hk, Option.some_inj, Line.assignment.injEq]
    simp only [eq_comm]
  have hbelow {i : Nat} {g k v : List Char} (hs : Sets ls i g k v) : i < ls.length := hs.2.lt
  have hmem : group ∈ r.file.groups.keys := h.mem_groups ((h.group group).1 hgroup)
  refine ⟨fun g => ?_, hread, fun g k v => ?_, ?_, fun g es hes => ?_⟩
  · rw [List.length_append, List.length_singleton, under_succ, h.group]
    simp [hheads]
  · rw [get_set]
    split
    · next hgk =>
      -- the line is the last one that sets this key
      obtain ⟨rfl, rfl⟩ := hgk
      have hthis : Sets (ls ++ [line]) ls.length g k value :=
        (hsets _ _ _ _).2 (.inr ⟨rfl, rfl, rfl, rfl⟩)
      constructor
      · intro hv
        cases hv
        refine ⟨ls.length, hthis, fun j hj v' hs => ?_⟩
        rcases (hsets _ _ _ _).1 hs with hs | ⟨rfl, -⟩
        · exact Nat.lt_asymm hj (hbelow hs)
        · exact Nat.lt_irrefl _ hj
      · rintro ⟨i, hs, hlast⟩
        rcases (hsets _ _ _ _).1 hs with hs | ⟨-, -, -, rfl⟩
        · exact absurd hthis (hlast ls.length (hbelow hs) value)
        · rfl
    · next hgk =>
      have hold (i : Nat) (v : List Char) : Sets (ls ++ [line]) i g k v ↔ Sets ls i g k v := by
        rw [hsets, or_iff_left]
        rintro ⟨-, hg, hk, -⟩
        exact hgk ⟨hg, hk⟩
      simp only [hold, h.value]
  · rw [set, Index.keys_alter, if_pos hmem]
    simpa only [at_concat, hheads, and_false, or_false] using h.groups
  · rw [set, Index.get?_alter] at hes
    split at hes
    · next hg =>
      subst hg
      obtain ⟨es₀, hes₀⟩ := Option.isSome_iff_exists.1 ((Index.get?_isSome_iff _ g).2 hmem)
      rw [hes₀, Option.getD_some] at hes
      cases hes
      have hlines (i : Nat) (k : List Char) (hv : ∃ v, Sets ls i g k v) : i < ls.length := by
        obtain ⟨v, hs⟩ := hv
        exact hbelow hs
      rw [Index.insert, Index.keys_alter]
      refine (h.keys g es₀ hes₀).concat hlines fun i k => ?_
      simp only [hsets, exists_or, exists_and_left, exists_eq, and_true, true_and]
    · next hg => simpa [hsets, hg] using h.keys g es hes

theorem Tells.step (h : Tells ls r) (hs : r.step (Line.ofTrimmed line) = .ok r') :
    Tells (ls ++ [line]) r' := by
  have hread : ∀ i, ¬Offends (ls ++ [line]) i := by
    intro i hi
    rcases offends_concat.1 hi with hi | ⟨-, hi⟩
    · exact h.readable i hi
    · simp only [← h.group, ← step_eq_error_iff, hs, reduceCtorEq, exists_false] at hi
  obtain ⟨hk, rfl⟩ | ⟨name, hk, rfl⟩ | ⟨group, key, value, hk, hgroup, rfl⟩ :=
    Reading.step_eq_ok hs
  · exact h.quiet hread (by simp [heads_iff, hk]) (by simp [assigns_iff, hk])
  · exact h.header hread hk
  · exact h.assignment hread hgroup hk

end Step

theorem Reading.run_append (n : Nat) (r : Reading) (xs ys : List Line) :
    r.run n (xs ++ ys) = (r.run n xs).bind fun r' => r'.run (n + xs.length) ys := by
  induction xs generalizing n r with
  | nil => rfl
  | cons x xs ih =>
    rw [List.cons_append, run, run]
    split
    · rfl
    · rw [ih, List.length_cons, Nat.add_assoc, Nat.add_comm 1]

/-- Reading stops at the first line that offends, and tells what lines say that do not. -/
theorem run_tells (ls : List (List Char)) :
    match Reading.run 1 ⟨empty, none⟩ (ls.map Line.ofTrimmed) with
    | .ok r => Tells ls r
    | .error e => ∃ i, e.line = i + 1 ∧ Offends ls i ∧ ∀ j < i, ¬Offends ls j := by
  induction ls using List.reverseRecOn with
  | nil => exact tells_nil
  | append_singleton ls line ih =>
    rw [List.map_append, Reading.run_append, List.length_map]
    cases hrun : Reading.run 1 ⟨empty, none⟩ (ls.map Line.ofTrimmed) with
    | error e =>
      rw [hrun] at ih
      obtain ⟨i, hline, hoff, hbefore⟩ := ih
      refine ⟨i, hline, offends_concat.2 (.inl hoff), fun j hj hoff' => ?_⟩
      rcases offends_concat.1 hoff' with hoff' | ⟨rfl, -⟩
      · exact hbefore j hj hoff'
      · exact Nat.lt_asymm hj hoff.lt
    | ok r =>
      rw [hrun] at ih
      dsimp only at ih
      rw [Except.bind, List.map_singleton, Reading.run]
      cases hs : r.step (Line.ofTrimmed line) with
      | ok r' => exact ih.step hs
      | error fault =>
        have hread := step_eq_error_iff.1 ⟨fault, hs⟩
        simp only [ih.group] at hread
        refine ⟨ls.length, Nat.add_comm 1 _, offends_concat.2 (.inr ⟨rfl, hread⟩),
          fun j hj hoff => ?_⟩
        rcases offends_concat.1 hoff with hoff | ⟨rfl, -⟩
        · exact ih.readable j hoff
        · exact Nat.lt_irrefl _ hj

section Parse

variable {text : List Char} {f : KeyFile} {e : ParseError} {ls : List (List Char)} {r : Reading}

theorem parse_eq (text : List Char) : parse text =
    (Reading.run 1 ⟨empty, none⟩ ((trimmed text).map Line.ofTrimmed)).map Reading.file := by
  rw [parse, trimmed, List.map_map]
  rfl

theorem tells_of_parse (h : parse text = .ok f) : ∃ r, r.file = f ∧ Tells (trimmed text) r := by
  have hrun := run_tells (trimmed text)
  rw [parse_eq] at h
  cases hr : Reading.run 1 ⟨empty, none⟩ ((trimmed text).map Line.ofTrimmed) with
  | error e =>
    rw [hr] at h
    cases h
  | ok r =>
    rw [hr] at h hrun
    cases h
    exact ⟨r, rfl, hrun⟩

theorem offends_of_parse (h : parse text = .error e) :
    ∃ i, e.line = i + 1 ∧ Offends (trimmed text) i ∧ ∀ j < i, ¬Offends (trimmed text) j := by
  have hrun := run_tells (trimmed text)
  rw [parse_eq] at h
  cases hr : Reading.run 1 ⟨empty, none⟩ ((trimmed text).map Line.ofTrimmed) with
  | error e =>
    rw [hr] at h hrun
    cases h
    exact hrun
  | ok r =>
    rw [hr] at h
    cases h

theorem Tells.get_eq_none_iff (h : Tells ls r) (g k : List Char) :
    r.file.get g k = none ↔ ∀ i v, ¬Sets ls i g k v := by
  constructor
  · intro hnone i v hs
    obtain ⟨es, hes⟩ := Option.isSome_iff_exists.1
      ((Index.get?_isSome_iff _ g).2 (h.mem_groups hs.1))
    have hk : (es.get? k).isSome :=
      (es.get?_isSome_iff k).2 (((h.keys g es hes).mem k).2 ⟨i, v, hs⟩)
    rw [get, hes, Option.bind_some] at hnone
    rw [hnone] at hk
    cases hk
  · intro hnone
    rw [Option.eq_none_iff_forall_ne_some]
    intro v hv
    obtain ⟨i, hs, -⟩ := (h.value g k v).1 hv
    exact hnone i v hs

end Parse

/-- A text is read just if no line of it offends, and the first that does is reported. A key of a
group has the value of the last line that gives it one below a header of the group. -/
theorem reads_last_assignments (text : List Char) :
    let ls := trimmed text
    ((∃ f, parse text = .ok f) ↔ ∀ i, ¬Offends ls i) ∧
    (∀ e, parse text = .error e → ∃ i, e.line = i + 1 ∧ Offends ls i ∧ ∀ j < i, ¬Offends ls j) ∧
    ∀ f, parse text = .ok f → ∀ g k,
      (∀ v, f.get g k = some v ↔ ∃ i, Sets ls i g k v ∧ ∀ j, i < j → ∀ v', ¬Sets ls j g k v') ∧
      (f.get g k = none ↔ ∀ i v, ¬Sets ls i g k v) := by
  intro ls
  refine ⟨⟨fun ⟨f, hf⟩ => ?_, fun hread => ?_⟩, fun e => offends_of_parse, fun f hf g k => ?_⟩
  · obtain ⟨r, -, hr⟩ := tells_of_parse hf
    exact hr.readable
  · cases hp : parse text with
    | ok f => exact ⟨f, rfl⟩
    | error e =>
      obtain ⟨i, -, hoff, -⟩ := offends_of_parse hp
      exact absurd hoff (hread i)
  · obtain ⟨r, rfl, hr⟩ := tells_of_parse hf
    exact ⟨hr.value g k, hr.get_eq_none_iff g k⟩

theorem reads_last_assignments_reopened :
    let text := "; note\n[ a ]\nk = 1\n[b]\nk=x\n[a]\r\n k= 2=3 \n".toList
    let broken := text ++ "[b\nnothing".toList
    (∃ f, parse text = .ok f ∧ f.get ['a'] ['k'] = some ['2', '=', '3'] ∧
      (∃ i, Sets (trimmed text) i ['a'] ['k'] ['2', '=', '3'] ∧
        ∀ j, i < j → ∀ v, ¬Sets (trimmed text) j ['a'] ['k'] v) ∧
      ∀ i v, ¬Sets (trimmed text) i ['b'] ['c'] v) ∧
    parse broken = .error ⟨8, .unterminatedHeader⟩ ∧
      Offends (trimmed broken) 7 ∧ ∀ j < 7, ¬Offends (trimmed broken) j := by
  intro text broken
  obtain ⟨-, -, hvalues⟩ := reads_last_assignments text
  obtain ⟨-, herror, -⟩ := reads_last_assignments broken
  have hbroken : parse broken = .error ⟨8, .unterminatedHeader⟩ := by decide +kernel
  have htext : parse text =
      .ok ⟨⟨[(['a'], ⟨[(['k'], ['2', '=', '3'])]⟩), (['b'], ⟨[(['k'], ['x'])]⟩)]⟩⟩ := by
    decide +kernel
  obtain ⟨i, hline, hoff, hbefore⟩ := herror _ hbroken
  cases hline
  refine ⟨⟨_, htext, rfl, ?_, ?_⟩, hbroken, hoff, hbefore⟩
  · exact ((hvalues _ htext ['a'] ['k']).1 _).1 rfl
  · exact (hvalues _ htext ['b'] ['c']).2.1 rfl

end KeyFile

end Telemetry

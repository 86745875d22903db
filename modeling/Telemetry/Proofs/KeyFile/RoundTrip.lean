import Telemetry.KeyFile.Printer
import Telemetry.Proofs.KeyFile.Meaning

namespace Telemetry.KeyFile

open Text

/-- Trimmed, and in one line. -/
def Fits (s : List Char) : Prop := trim s = s ∧ '\n' ∉ s

def FitsKey (s : List Char) : Prop :=
  Fits s ∧ '=' ∉ s ∧ s.head? ≠ some '[' ∧ s.head? ≠ some '#' ∧ s.head? ≠ some ';'

/-- The names, keys and values are as they can stand in a text. -/
def Plain (f : KeyFile) : Prop :=
  ∀ g ∈ f.groups.entries, Fits g.1 ∧ ∀ e ∈ g.2.entries, FitsKey e.1 ∧ Fits e.2

instance (s : List Char) : Decidable (Fits s) := inferInstanceAs (Decidable (_ ∧ _))

instance (s : List Char) : Decidable (FitsKey s) := inferInstanceAs (Decidable (_ ∧ _))

instance (f : KeyFile) : Decidable f.Plain :=
  inferInstanceAs (Decidable (∀ g ∈ f.groups.entries, _ ∧ ∀ e ∈ g.2.entries, _))

def Distinct (f : KeyFile) : Prop :=
  f.groups.keys.Nodup ∧ ∀ g ∈ f.groups.entries, g.2.keys.Nodup

/-- How a key file comes about. -/
inductive Built : KeyFile → Prop
  | empty : Built .empty
  | parsed {text : List Char} {f : KeyFile} (h : parse text = .ok f) : Built f
  | set {f : KeyFile} (h : Built f) (group key value : List Char) : Built (f.set group key value)

section Invariants

variable {f : KeyFile} {group key value : List Char}

theorem Distinct.set (h : f.Distinct) (group key value : List Char) :
    (f.set group key value).Distinct :=
  ⟨Index.nodup_keys_alter _ _ _ h.1,
    Index.forall_mem_change h.2 (Index.nodup_keys_alter _ _ _ List.nodup_nil)
      fun _ hg => Index.nodup_keys_alter _ _ _ hg⟩

theorem Plain.openGroup (h : f.Plain) (hg : Fits group) : (f.openGroup group).Plain :=
  Index.forall_mem_change h ⟨hg, List.forall_mem_nil _⟩ fun _ h => h

theorem Plain.set (h : f.Plain) (hg : Fits group) (hk : FitsKey key) (hv : Fits value) :
    (f.set group key value).Plain := by
  have hinsert {es : List (List Char × List Char)} (hes : ∀ e ∈ es, FitsKey e.1 ∧ Fits e.2) :
      ∀ e ∈ Index.change key (fun _ => value) es, FitsKey e.1 ∧ Fits e.2 :=
    Index.forall_mem_change hes ⟨hk, hv⟩ fun _ _ => ⟨hk, hv⟩
  exact Index.forall_mem_change h ⟨hg, hinsert (List.forall_mem_nil _)⟩
    fun _ hold => ⟨hg, hinsert hold.2⟩

end Invariants

def Line.Fits : Line → Prop
  | header name => KeyFile.Fits name
  | assignment key value => FitsKey key ∧ KeyFile.Fits value
  | _ => True

theorem fits_trim {s : List Char} (h : '\n' ∉ s) : Fits (trim s) :=
  ⟨trim_trim s, fun hm => h (mem_of_mem_trim hm)⟩

theorem Line.fits_ofRaw {raw : List Char} (h : '\n' ∉ raw) : (ofRaw raw).Fits := by
  have hraw : '\n' ∉ trim raw := fun hm => h (mem_of_mem_trim hm)
  have hdescribes := describes_ofTrimmed (trim raw)
  rw [ofRaw]
  generalize ofTrimmed (trim raw) = kind at hdescribes
  cases kind with
  | header name =>
    obtain ⟨name, hline, rfl⟩ := hdescribes
    rw [hline] at hraw
    exact fits_trim fun hm => hraw (by simp [hm])
  | assignment key value =>
    obtain ⟨hskip, hopen, before, after, hline, hmark, rfl, rfl⟩ := hdescribes
    have hfront {c : Char} (hc : before.head? = some c) : (trim raw).head? = some c := by
      rw [hline, List.head?_append, hc]
      rfl
    have hhead {c : Char} (hc : (trim before).head? = some c) : (trim raw).head? = some c :=
      hfront (head?_of_head?_trim (fun _ h => isBlank_of_head?_trim (hfront h)) hc)
    rw [hline] at hraw
    refine ⟨⟨fits_trim fun hm => hraw (by simp [hm]), fun hm => hmark (mem_of_mem_trim hm),
      fun hc => hopen (hhead hc), fun hc => hskip (.inr (.inl (hhead hc))),
      fun hc => hskip (.inr (.inr (hhead hc)))⟩, fits_trim fun hm => hraw (by simp [hm])⟩
  | ignored | unterminated | noEquals => trivial

section Running

variable {r r' : Reading} {f : KeyFile} {n : Nat} {text : List Char}

theorem plain_run {raws : List (List Char)} (hraws : ∀ raw ∈ raws, '\n' ∉ raw)
    (hf : r.file.Plain) (hg : ∀ g, r.group = some g → Fits g)
    (h : r.run n (raws.map Line.ofRaw) = .ok r') : r'.file.Plain := by
  induction raws generalizing r n with
  | nil =>
    cases h
    exact hf
  | cons raw raws ih =>
    have hline := Line.fits_ofRaw (hraws raw List.mem_cons_self)
    have hrest := fun raw hraw => hraws raw (List.mem_cons_of_mem _ hraw)
    rw [List.map_cons, Reading.run] at h
    split at h
    · cases h
    · next r₁ hs =>
      obtain ⟨hl, rfl⟩ | ⟨name, hl, rfl⟩ | ⟨group, key, value, hl, hgroup, rfl⟩ :=
        Reading.step_eq_ok hs
      · exact ih hrest hf hg h
      · rw [hl] at hline
        have hname : ∀ g, some name = some g → Fits g := fun g hg => Option.some.inj hg ▸ hline
        exact ih hrest (hf.openGroup hline) hname h
      · rw [hl] at hline
        exact ih (r := { r with file := r.file.set group key value }) hrest
          (hf.set (hg group hgroup) hline.1 hline.2) hg h

theorem plain_of_parse (h : parse text = .ok f) : f.Plain := by
  rw [parse] at h
  cases hrun : Reading.run 1 ⟨empty, none⟩ ((lines text).map Line.ofRaw) with
  | error e =>
    rw [hrun] at h
    cases h
  | ok r =>
    rw [hrun] at h
    cases h
    have hempty : empty.Plain := List.forall_mem_nil _
    exact plain_run (fun _ => not_mem_of_mem_lines) hempty (by simp) hrun

theorem distinct_of_parse (h : parse text = .ok f) : f.Distinct := by
  obtain ⟨r, rfl, hr⟩ := tells_of_parse h
  refine ⟨hr.groups.nodup, fun g hg => ?_⟩
  exact (hr.keys g.1 g.2 ((Index.get?_eq_some_iff hr.groups.nodup).2 hg)).nodup

theorem Built.distinct (h : Built f) : f.Distinct := by
  induction h with
  | empty => exact ⟨List.nodup_nil, List.forall_mem_nil _⟩
  | parsed h => exact distinct_of_parse h
  | set _ group key value ih => exact ih.set group key value

end Running

section Rendering

def groupLines (g : List Char × Index (List Char) (List Char)) : List (List Char) :=
  ('[' :: g.1 ++ [']']) :: g.2.entries.map fun e => e.1 ++ '=' :: e.2

def fileLines (gs : List (List Char × Index (List Char) (List Char))) : List (List Char) :=
  ((gs.map groupLines).intersperse [[]]).flatten

theorem ofRaw_header {name : List Char} (h : trim name = name) :
    Line.ofRaw ('[' :: name ++ [']']) = .header name := by
  have htrim : trim ('[' :: name ++ [']']) = '[' :: name ++ [']'] := by
    rw [trim_eq_self_iff]
    refine ⟨fun c hc => ?_, fun c hc => ?_⟩
    · cases hc
      decide
    · rw [List.getLast?_concat] at hc
      cases hc
      decide
  rw [Line.ofRaw, htrim]
  exact heads_iff.1 ⟨name, rfl, h⟩

theorem ofRaw_assignment {key value : List Char} (hk : FitsKey key) (hv : Fits value) :
    Line.ofRaw (key ++ '=' :: value) = .assignment key value := by
  obtain ⟨⟨hkey, -⟩, hmark, hopen, hhash, hsemi⟩ := hk
  have htrim : trim (key ++ '=' :: value) = key ++ '=' :: value := by
    rw [trim_eq_self_iff] at hkey ⊢
    have hvalue := trim_eq_self_iff.1 hv.1
    refine ⟨fun c hc => ?_, fun c hc => ?_⟩
    · cases key with
      | nil =>
        cases hc
        decide
      | cons a key => exact hkey.1 c hc
    · rw [List.getLast?_append] at hc
      cases value with
      | nil =>
        cases hc
        decide
      | cons a value => exact hvalue.2 c (by simpa [List.getLast?_cons_cons] using hc)
  rw [Line.ofRaw, htrim]
  apply assigns_iff.1
  refine ⟨?_, ?_, key, value, rfl, hmark, hkey, hv.1⟩
  · cases key with
    | nil => simp [Skipped]
    | cons a key => simpa [Skipped] using And.intro hhash hsemi
  · cases key with
    | nil => simp
    | cons a key => simpa using hopen

theorem renderGroup_eq (g : List Char × Index (List Char) (List Char)) :
    renderGroup g = (groupLines g).flatMap fun line => line ++ ['\n'] := by
  have hentry : renderEntry = fun e => e.1 ++ '=' :: (e.2 ++ ['\n']) := by
    funext e
    simp [renderEntry]
  simp [renderGroup, groupLines, hentry, List.flatMap_map]

theorem fileLines_cons (g g' : List Char × Index (List Char) (List Char))
    (gs : List (List Char × Index (List Char) (List Char))) :
    fileLines (g :: g' :: gs) = groupLines g ++ [] :: fileLines (g' :: gs) := rfl

theorem render_eq (f : KeyFile) :
    f.render = (fileLines f.groups.entries).flatMap fun line => line ++ ['\n'] := by
  rw [render]
  generalize f.groups.entries = gs
  induction gs with
  | nil => rfl
  | cons g gs ih =>
    cases gs with
    | nil => simp [fileLines, renderGroup_eq]
    | cons g' gs =>
      rw [fileLines_cons, List.flatMap_append, List.flatMap_cons, ← renderGroup_eq, ← ih]
      rfl

theorem lines_flatMap {ls : List (List Char)} (h : ∀ line ∈ ls, '\n' ∉ line) :
    lines (ls.flatMap fun line => line ++ ['\n']) = ls ++ [[]] := by
  induction ls with
  | nil => rfl
  | cons line ls ih =>
    have hrest := ih fun l hl => h l (List.mem_cons_of_mem _ hl)
    rw [List.flatMap_cons, List.append_assoc, List.singleton_append,
      lines_append (h line List.mem_cons_self), hrest, List.cons_append]

variable {g : List Char × Index (List Char) (List Char)}
  {gs : List (List Char × Index (List Char) (List Char))}

theorem not_mem_groupLines (hg : Fits g.1) (hes : ∀ e ∈ g.2.entries, FitsKey e.1 ∧ Fits e.2) :
    ∀ line ∈ groupLines g, '\n' ∉ line := by
  rw [groupLines, List.forall_mem_cons, List.forall_mem_map]
  refine ⟨by simp [hg.2], fun e he => ?_⟩
  obtain ⟨⟨hkey, -⟩, hvalue⟩ := hes e he
  simp [hkey.2, hvalue.2]

theorem not_mem_fileLines (h : ∀ g ∈ gs, Fits g.1 ∧ ∀ e ∈ g.2.entries, FitsKey e.1 ∧ Fits e.2) :
    ∀ line ∈ fileLines gs, '\n' ∉ line := by
  induction gs with
  | nil => exact List.forall_mem_nil _
  | cons g gs ih =>
    rw [List.forall_mem_cons] at h
    have hgroup := not_mem_groupLines h.1.1 h.1.2
    cases gs with
    | nil => simpa [fileLines] using hgroup
    | cons g' gs =>
      rw [fileLines_cons, List.forall_mem_append, List.forall_mem_cons]
      exact ⟨hgroup, by simp, ih h.2⟩

theorem run_entries {groups : List (List Char × Index (List Char) (List Char))} {name : List Char}
    (hname : name ∉ groups.map Prod.fst) (before : List (List Char × List Char))
    {entries : List (List Char × List Char)}
    (hkeys : ((before ++ entries).map Prod.fst).Nodup)
    (hes : ∀ e ∈ entries, FitsKey e.1 ∧ Fits e.2) (n : Nat) :
    Reading.run n ⟨⟨⟨groups ++ [(name, ⟨before⟩)]⟩⟩, some name⟩
        ((entries.map fun e => e.1 ++ '=' :: e.2).map Line.ofRaw) =
      .ok ⟨⟨⟨groups ++ [(name, ⟨before ++ entries⟩)]⟩⟩, some name⟩ := by
  induction entries generalizing before n with
  | nil => simp [Reading.run]
  | cons e entries ih =>
    obtain ⟨key, value⟩ := e
    rw [List.forall_mem_cons] at hes
    have hline := ofRaw_assignment hes.1.1 hes.1.2
    have hkey : key ∉ before.map Prod.fst := by
      rw [List.map_append, List.nodup_append] at hkeys
      exact fun hm => hkeys.2.2 key hm key (by simp) rfl
    have hset : (⟨⟨groups ++ [(name, ⟨before⟩)]⟩⟩ : KeyFile).set name key value =
        ⟨⟨groups ++ [(name, ⟨before ++ [(key, value)]⟩)]⟩⟩ := by
      rw [set, Index.alter, Index.change_append hname, Index.change, if_pos rfl, Option.getD_some,
        Index.insert, Index.alter, Index.change_of_not_mem hkey]
    rw [List.map_cons, List.map_cons, hline, Reading.run, Reading.step]
    dsimp only
    rw [hset, List.append_cons before (key, value) entries]
    exact ih _ (by rwa [List.append_cons] at hkeys) hes.2 (n + 1)

theorem run_group {groups : List (List Char × Index (List Char) (List Char))}
    (hname : g.1 ∉ groups.map Prod.fst) (hkeys : g.2.keys.Nodup) (hg : Fits g.1)
    (hes : ∀ e ∈ g.2.entries, FitsKey e.1 ∧ Fits e.2) (n : Nat) (o : Option (List Char)) :
    Reading.run n ⟨⟨⟨groups⟩⟩, o⟩ ((groupLines g).map Line.ofRaw) =
      .ok ⟨⟨⟨groups ++ [g]⟩⟩, some g.1⟩ := by
  obtain ⟨name, entries⟩ := g
  have hopen : (⟨⟨groups⟩⟩ : KeyFile).openGroup name = ⟨⟨groups ++ [(name, ⟨[]⟩)]⟩⟩ := by
    rw [openGroup, Index.alter, Index.change_of_not_mem hname]
    rfl
  rw [groupLines, List.map_cons, ofRaw_header hg.1, Reading.run, Reading.step]
  dsimp only
  rw [hopen]
  exact run_entries hname [] hkeys hes (n + 1)

theorem run_fileLines (groups : List (List Char × Index (List Char) (List Char)))
    (hnames : ((groups ++ gs).map Prod.fst).Nodup) (hkeys : ∀ g ∈ gs, g.2.keys.Nodup)
    (h : ∀ g ∈ gs, Fits g.1 ∧ ∀ e ∈ g.2.entries, FitsKey e.1 ∧ Fits e.2) (n : Nat)
    (o : Option (List Char)) :
    ∃ o', Reading.run n ⟨⟨⟨groups⟩⟩, o⟩ ((fileLines gs).map Line.ofRaw) =
      .ok ⟨⟨⟨groups ++ gs⟩⟩, o'⟩ := by
  induction gs generalizing groups n o with
  | nil => exact ⟨o, by simp [fileLines, Reading.run]⟩
  | cons g gs ih =>
    rw [List.forall_mem_cons] at hkeys h
    have hname : g.1 ∉ groups.map Prod.fst := by
      rw [List.map_append, List.nodup_append] at hnames
      exact fun hm => hnames.2.2 g.1 hm g.1 (by simp) rfl
    have hgroup := run_group hname hkeys.1 h.1.1 h.1.2
    cases gs with
    | nil => exact ⟨some g.1, by simpa [fileLines] using hgroup n o⟩
    | cons g' gs =>
      obtain ⟨o', hrest⟩ := ih (groups ++ [g]) (by rwa [← List.append_cons]) hkeys.2 h.2
        (n + (groupLines g).length + 1) (some g.1)
      refine ⟨o', ?_⟩
      rw [fileLines_cons, List.map_append, Reading.run_append, hgroup, List.length_map]
      rw [← List.append_cons] at hrest
      exact hrest

/-- What can stand in a text is read back from it. -/
theorem parse_render_of_plain {f : KeyFile} (hd : f.Distinct) (hp : f.Plain) :
    parse f.render = .ok f := by
  obtain ⟨o, hrun⟩ := run_fileLines [] hd.1 hd.2 hp 1 none
  rw [parse, render_eq, lines_flatMap (not_mem_fileLines hp), List.map_append, Reading.run_append]
  have hstart : (⟨empty, none⟩ : Reading) = ⟨⟨⟨[]⟩⟩, none⟩ := rfl
  rw [hstart, hrun]
  rfl

end Rendering

/-- A file is read back from its text just if its names, keys and values can stand there. So can
those that were read from any text; its groups and their keys stand in the order of their first
lines. -/
theorem reproduced_iff_plain :
    (∀ f, Built f → (parse f.render = .ok f ↔ Plain f)) ∧
    ∀ text f, parse text = .ok f → parse f.render = .ok f ∧
      Appearing (fun i g => At (Heads · g) (trimmed text) i) f.groups.keys ∧
      ∀ g es, (g, es) ∈ f.groups.entries →
        Appearing (fun i k => ∃ v, Sets (trimmed text) i g k v) es.keys := by
  refine ⟨fun f hf => ⟨plain_of_parse, parse_render_of_plain hf.distinct⟩, fun text f hf => ?_⟩
  refine ⟨parse_render_of_plain (distinct_of_parse hf) (plain_of_parse hf), ?_⟩
  obtain ⟨r, rfl, hr⟩ := tells_of_parse hf
  exact ⟨hr.groups, fun g es hg => hr.keys g es ((Index.get?_eq_some_iff hr.groups.nodup).2 hg)⟩

theorem reproduced_iff_plain_bracketed :
    let text := "[b]\n=\n\n[ a]b[ ]\r\nx = [1]\n[b]\nx=#".toList
    ∃ f, parse text = .ok f ∧ parse f.render = .ok f ∧
      f.groups.keys = [['b'], ['a', ']', 'b', '[']] ∧
      parse (f.set ['c'] [] "u=v".toList).render = .ok (f.set ['c'] [] "u=v".toList) ∧
      parse (f.set ['c'] [' ', 'k'] []).render ≠ .ok (f.set ['c'] [' ', 'k'] []) := by
  intro text
  obtain ⟨hbuilt, hparsed⟩ := reproduced_iff_plain
  have htext : parse text = .ok ⟨⟨[(['b'], ⟨[([], []), (['x'], ['#'])]⟩),
      (['a', ']', 'b', '['], ⟨[(['x'], ['[', '1', ']'])]⟩)]⟩⟩ := by decide +kernel
  refine ⟨_, htext, (hparsed text _ htext).1, rfl, ?_, fun h => ?_⟩
  · rw [hbuilt _ ((Built.parsed htext).set _ _ _)]
    decide +kernel
  · rw [hbuilt _ ((Built.parsed htext).set _ _ _)] at h
    revert h
    decide +kernel

end Telemetry.KeyFile

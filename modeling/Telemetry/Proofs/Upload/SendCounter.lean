import Telemetry.Proofs.Text.Utf8
import Telemetry.Upload.SendCounter

namespace Telemetry.Upload.SendCounter

open Text

theorem contents_file (n : UInt64) :
    (file n).contents = Utf8.encode (('[' :: group ++ [']']) ++ '\n' ::
      ((key ++ '=' :: Numeral.ofNat n.toNat) ++ '\n' :: [])) := by
  rw [KeyFile.contents]
  congr 1
  change ('[' :: group ++ [']', '\n'] ++
    ((key ++ '=' :: Numeral.ofNat n.toNat ++ ['\n']) ++ [])) ++ [] = _
  simp

theorem not_mem_ofNat {c : Char} (hc : c.isDigit = false) (n : Nat) : c ∉ Numeral.ofNat n := by
  intro h
  rw [Numeral.isDigit_of_mem_ofNat h] at hc
  cases hc

theorem isBlank_of_mem_key {c : Char} (h : c ∈ key) : isBlank c = false := by
  have hall : key.all (fun c => !isBlank c) = true := by decide
  simpa using List.all_eq_true.1 hall c h

theorem ofRaw_entry (n : Nat) :
    KeyFile.Line.ofRaw (key ++ '=' :: Numeral.ofNat n) = .assignment key (Numeral.ofNat n) := by
  have hdigits : ∀ c ∈ Numeral.ofNat n, isBlank c = false :=
    fun c hc => isBlank_of_isDigit (Numeral.isDigit_of_mem_ofNat hc)
  have hline : ∀ c ∈ key ++ '=' :: Numeral.ofNat n, isBlank c = false := by
    intro c hc
    rcases List.mem_append.1 hc with hc | hc
    · exact isBlank_of_mem_key hc
    · rcases List.mem_cons.1 hc with rfl | hc
      · rfl
      · exact hdigits c hc
  have hsplit : splitAt? '=' (key ++ '=' :: Numeral.ofNat n) = some (key, Numeral.ofNat n) :=
    splitAt?_append (by decide) _
  rw [KeyFile.Line.ofRaw, trim_eq_self hline]
  change (splitAt? '=' (key ++ '=' :: Numeral.ofNat n)).elim KeyFile.Line.noEquals
    (fun p => .assignment (trim p.1) (trim p.2)) = _
  rw [hsplit, Option.elim_some, trim_eq_self hdigits, trim_eq_self fun c => isBlank_of_mem_key]

theorem load_file (n : UInt64) :
    KeyFile.load (.file (file n).contents) =
      .ok (some ((KeyFile.empty.openGroup group).set group key (Numeral.ofNat n.toNat))) := by
  have hlines : lines (('[' :: group ++ [']']) ++ '\n' ::
      ((key ++ '=' :: Numeral.ofNat n.toNat) ++ '\n' :: [])) =
      ['[' :: group ++ [']'], key ++ '=' :: Numeral.ofNat n.toNat, []] := by
    have hentry : '\n' ∉ key ++ '=' :: Numeral.ofNat n.toNat := by
      have hdigits := not_mem_ofNat (c := '\n') rfl n.toNat
      have hkey : '\n' ∉ key := by decide
      simp [hdigits, hkey]
    rw [lines_append (by decide), lines_append hentry]
    rfl
  have hheader : KeyFile.Line.ofRaw ('[' :: group ++ [']']) = .header group := by decide
  have hempty : KeyFile.Line.ofRaw [] = .ignored := rfl
  rw [contents_file, KeyFile.load, Utf8.decode_encode]
  dsimp only
  rw [KeyFile.parse, hlines, List.map_cons, List.map_cons, List.map_cons, List.map_nil, hheader,
    ofRaw_entry, hempty]
  rfl

theorem current_file (n : UInt64) : current (.file (file n).contents) = .ok n := by
  rw [current, load_file]
  dsimp only
  rw [KeyFile.getNumber, KeyFile.get_set_self]
  dsimp only
  rw [Numeral.parse_ofNat]
  rfl

theorem next_eq {e : Entry} {n : UInt64} (h : current e = .ok n) :
    ∃ e', next e = (.ok n, e') ∧ current e' = .ok (n + 1) := by
  have hfile : e.replace (file (n + 1)).contents = .ok (.file (file (n + 1)).contents) := by
    cases e with
    | directory => cases h
    | missing | file => rfl
  refine ⟨.file (file (n + 1)).contents, ?_, current_file (n + 1)⟩
  rw [next, h]
  dsimp only
  rw [hfile]

def Counts (e : Entry) (n : Nat) : Prop := ∃ m, current e = .ok m ∧ m.toNat = n

theorem Counts.next {e : Entry} {n : Nat} (h : Counts e n) (hn : n + 1 < UInt64.size) :
    ∃ m e', SendCounter.next e = (.ok m, e') ∧ m.toNat = n ∧ Counts e' (n + 1) := by
  obtain ⟨m, hm, rfl⟩ := h
  obtain ⟨e', he, hcurrent⟩ := next_eq hm
  refine ⟨m, e', he, rfl, m + 1, hcurrent, ?_⟩
  rw [UInt64.toNat_add]
  exact Nat.mod_eq_of_lt hn

end Telemetry.Upload.SendCounter

import Telemetry.Consent.State
import Telemetry.Proofs.KeyFile.Meaning
import Telemetry.Proofs.Text.Utf8

namespace Telemetry

open Text

namespace KeyFile

/-- Of the lines that give a key of a group a value, the last one gives it this value. -/
def GivesLast (ls : List (List Char)) (group key value : List Char) : Prop :=
  ∃ i, Sets ls i group key value ∧ ∀ j, i < j → ∀ v, ¬Sets ls j group key v

/-- The entry is a file with the octets of the text, of which every line can be read. -/
def Holds (e : Entry) (text : List Char) : Prop :=
  e = .file (Utf8.encode text) ∧ ∀ i, ¬Offends (trimmed text) i

variable {e : Entry} {f : KeyFile} {text : List Char}

theorem load_eq_some_iff :
    load e = .ok (some f) ↔ ∃ text, e = .file (Utf8.encode text) ∧ parse text = .ok f := by
  constructor
  · intro h
    cases e with
    | missing => cases h
    | directory => cases h
    | file bytes =>
      rw [load] at h
      split at h
      · cases h
      · next text hdecode =>
        split at h
        · cases h
        · next hparse =>
          cases h
          exact ⟨text, by rw [Utf8.encode_of_decode hdecode], hparse⟩
  · rintro ⟨text, rfl, hparse⟩
    rw [load, Utf8.decode_encode]
    dsimp only
    rw [hparse]

theorem exists_parse_iff : (∃ f, parse text = .ok f) ↔ ∀ i, ¬Offends (trimmed text) i := by
  constructor
  · rintro ⟨f, hf⟩
    obtain ⟨r, -, hr⟩ := tells_of_parse hf
    exact hr.readable
  · intro hread
    cases hparse : parse text with
    | ok f => exact ⟨f, rfl⟩
    | error fault =>
      obtain ⟨i, -, hoff, -⟩ := offends_of_parse hparse
      exact absurd hoff (hread i)

theorem get_eq_some_iff (h : parse text = .ok f) (group key value : List Char) :
    f.get group key = some value ↔ GivesLast (trimmed text) group key value := by
  obtain ⟨r, rfl, hr⟩ := tells_of_parse h
  exact hr.value group key value

theorem exists_load_iff : (∃ f, load e = .ok (some f)) ↔ ∃ text, Holds e text := by
  constructor
  · rintro ⟨f, hf⟩
    obtain ⟨text, rfl, hparse⟩ := load_eq_some_iff.1 hf
    exact ⟨text, rfl, exists_parse_iff.1 ⟨f, hparse⟩⟩
  · rintro ⟨text, rfl, hread⟩
    obtain ⟨f, hparse⟩ := exists_parse_iff.2 hread
    exact ⟨f, load_eq_some_iff.2 ⟨text, rfl, hparse⟩⟩

theorem exists_get_iff (e : Entry) (group key value : List Char) :
    (∃ f, load e = .ok (some f) ∧ f.get group key = some value) ↔
      ∃ text, Holds e text ∧ GivesLast (trimmed text) group key value := by
  constructor
  · rintro ⟨f, hf, hget⟩
    obtain ⟨text, rfl, hparse⟩ := load_eq_some_iff.1 hf
    exact ⟨text, ⟨rfl, exists_parse_iff.1 ⟨f, hparse⟩⟩, (get_eq_some_iff hparse _ _ _).1 hget⟩
  · rintro ⟨text, ⟨rfl, hread⟩, hgives⟩
    obtain ⟨f, hparse⟩ := exists_parse_iff.2 hread
    exact ⟨f, load_eq_some_iff.2 ⟨text, rfl, hparse⟩, (get_eq_some_iff hparse _ _ _).2 hgives⟩

end KeyFile

namespace Consent

open KeyFile

namespace Environment

theorem parse?_eq_dev_iff {s : List Char} : parse? s = some dev ↔ s = "dev".toList := by
  rw [parse?]
  split
  · next h =>
    subst h
    decide
  · split
    · next h => exact iff_of_true rfl h
    · next h => exact iff_of_false nofun h

end Environment

namespace State

variable {e : Entry} {f : KeyFile}

theorem flag_eq_true_iff (key : List Char) :
    flag f key = true ↔ f.get group key = some "true".toList := by
  rw [flag, getBool]
  cases f.get group key with
  | none => simp
  | some value =>
    rw [Option.some_inj]
    dsimp only
    by_cases htrue : value = "true".toList
    · rw [if_pos htrue]
      exact iff_of_true rfl htrue
    · rw [if_neg htrue]
      refine iff_of_false ?_ htrue
      by_cases hfalse : value = "false".toList
      · rw [if_pos hfalse]
        exact Bool.false_ne_true
      · rw [if_neg hfalse]
        exact Bool.false_ne_true

theorem environment_ofKeyFile_eq_dev_iff :
    (ofKeyFile f).environment = .dev ↔ f.get group environmentKey = some "dev".toList := by
  rw [ofKeyFile]
  dsimp only
  cases f.get group environmentKey with
  | none => simp
  | some value =>
    rw [Option.bind_some, Option.some_inj, ← Environment.parse?_eq_dev_iff]
    cases Environment.parse? value <;> simp

/-- What only a key file can give is in the state if the key file of the entry gives it. -/
theorem load_iff {p : State → Prop} (h : ¬p refused) :
    p (load e) ↔ ∃ f, KeyFile.load e = .ok (some f) ∧ p (ofKeyFile f) := by
  rw [load]
  split
  · next f hf => simp [hf]
  · next hnone =>
    refine iff_of_false h ?_
    rintro ⟨f, hf, -⟩
    exact hnone f hf

/-- For whatever stands in the place of the consent file: a flag is granted exactly by a text that
can be read to its end and in which the last assignment of the flag, over all openings of the group,
gives it the word `true`; the environment is that of developers exactly where the last assignment
says so. What is no text, or has a line that cannot be read, refuses everything. -/
theorem granted_iff_assigned (e : Entry) :
    ((load e).enabled = true ↔
      ∃ text, Holds e text ∧ GivesLast (trimmed text) group enabledKey "true".toList) ∧
    ((load e).uploading = true ↔
      ∃ text, Holds e text ∧ GivesLast (trimmed text) group uploadingKey "true".toList) ∧
    ((load e).environment = .dev ↔
      ∃ text, Holds e text ∧ GivesLast (trimmed text) group environmentKey "dev".toList) ∧
    (load e = refused ∨ ∃ text, Holds e text) := by
  refine ⟨?_, ?_, ?_, ?_⟩
  · rw [load_iff (p := fun s => s.enabled = true) (by decide), ← exists_get_iff]
    exact exists_congr fun f => and_congr_right fun _ => flag_eq_true_iff enabledKey
  · rw [load_iff (p := fun s => s.uploading = true) (by decide), ← exists_get_iff]
    exact exists_congr fun f => and_congr_right fun _ => flag_eq_true_iff uploadingKey
  · rw [load_iff (p := fun s => s.environment = .dev) (by decide), ← exists_get_iff]
    exact exists_congr fun f => and_congr_right fun _ => environment_ofKeyFile_eq_dev_iff
  · rw [← exists_load_iff, load]
    split
    · next f hf => exact .inr ⟨f, hf⟩
    · exact .inl rfl

example :
    load (.file (Utf8.encode ("[global]\nenabled=false\n[other]\nenabled=no\n" ++
      "[ global ]\nenabled= true\nuploading_enabled=TRUE").toList)) = ⟨true, false, .production⟩ := by
  decide +kernel

end State

end Consent

end Telemetry

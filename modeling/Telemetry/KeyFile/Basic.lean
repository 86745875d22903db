import Telemetry.Index
import Telemetry.Text.Numeral

namespace Telemetry

open Text

/-- Groups by name, and in a group values by key. -/
structure KeyFile where
  groups : Index (List Char) (Index (List Char) (List Char))
  deriving DecidableEq, Repr

namespace KeyFile

def empty : KeyFile := ⟨Index.empty⟩

instance : Inhabited KeyFile := ⟨empty⟩

def openGroup (f : KeyFile) (group : List Char) : KeyFile :=
  ⟨f.groups.alter group fun g => g.getD Index.empty⟩

def set (f : KeyFile) (group key value : List Char) : KeyFile :=
  ⟨f.groups.alter group fun g => (g.getD Index.empty).insert key value⟩

def get (f : KeyFile) (group key : List Char) : Option (List Char) :=
  (f.groups.get? group).bind fun g => g.get? key

inductive ValueError
  | notBoolean (group key value : List Char)
  | notANumber (group key : List Char) (cause : NumeralError)
  deriving DecidableEq, Repr

def ValueError.message : ValueError → String
  | .notBoolean group key value =>
    "Key '" ++ String.ofList group ++ ":" ++ String.ofList key ++ "' has non-boolean value '"
      ++ String.ofList value ++ "'"
  | .notANumber group key cause =>
    "Key '" ++ String.ofList group ++ ":" ++ String.ofList key ++ "' is not a number: "
      ++ cause.message

def getBool (f : KeyFile) (group key : List Char) : Except ValueError (Option Bool) :=
  match f.get group key with
  | none => .ok none
  | some value =>
    if value = "true".toList then .ok (some true)
    else if value = "false".toList then .ok (some false)
    else .error (.notBoolean group key value)

def getNumber (f : KeyFile) (group key : List Char) : Except ValueError (Option UInt64) :=
  match f.get group key with
  | none => .ok none
  | some value =>
    match Numeral.parse value with
    | .ok n => .ok (some n)
    | .error cause => .error (.notANumber group key cause)

theorem get_set_self (f : KeyFile) (group key value : List Char) :
    (f.set group key value).get group key = some value := by
  simp [get, set, Index.insert]

theorem get_set_other_group (f : KeyFile) {group other : List Char} (h : other ≠ group)
    (key value k : List Char) : (f.set group key value).get other k = f.get other k := by
  simp [get, set, Index.get?_alter_ne _ h]

theorem get_set_other_key (f : KeyFile) (group : List Char) {key k : List Char} (h : k ≠ key)
    (value : List Char) : (f.set group key value).get group k = f.get group k := by
  simp only [get, set, Index.get?_alter_self, Option.bind_some, Index.insert,
    Index.get?_alter_ne _ h]
  cases f.groups.get? group <;> simp

theorem get_set (f : KeyFile) (group key value g k : List Char) :
    (f.set group key value).get g k = if g = group ∧ k = key then some value else f.get g k := by
  by_cases hg : g = group
  · subst hg
    by_cases hk : k = key
    · subst hk
      simp [get_set_self]
    · simp [hk, get_set_other_key f g hk]
  · simp [hg, get_set_other_group f hg]

theorem get_openGroup (f : KeyFile) (group g k : List Char) :
    (f.openGroup group).get g k = f.get g k := by
  rw [get, openGroup, Index.get?_alter]
  split
  · next hg =>
    subst hg
    cases hget : f.groups.get? g with
    | none => simp [get, hget]
    | some es => simp [get, hget]
  · rfl

end KeyFile

end Telemetry

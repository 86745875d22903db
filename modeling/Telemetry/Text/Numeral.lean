namespace Telemetry.Text

inductive NumeralError
  | empty
  | notADigit
  | tooLarge
  deriving DecidableEq, Repr

def NumeralError.message : NumeralError → String
  | .empty => "cannot parse integer from empty string"
  | .notADigit => "invalid digit found in string"
  | .tooLarge => "number too large to fit in target type"

namespace Numeral

def digit? (c : Char) : Option Nat :=
  if 48 ≤ c.toNat ∧ c.toNat ≤ 57 then some (c.toNat - 48) else none

def readDigits (n : Nat) : List Char → Except NumeralError Nat
  | [] => .ok n
  | c :: rest =>
    match digit? c with
    | none => .error .notADigit
    | some d => if 10 * n + d < UInt64.size then readDigits (10 * n + d) rest else .error .tooLarge

def parse : List Char → Except NumeralError UInt64
  | [] => .error .empty
  | ['+'] => .error .notADigit
  | '+' :: digits => (readDigits 0 digits).map UInt64.ofNat
  | digits => (readDigits 0 digits).map UInt64.ofNat

def ofNat (n : Nat) : List Char := Nat.toDigits 10 n

def leading? (limit : Nat) (s : List Char) : Option (Nat × List Char) :=
  let digits := (s.takeWhile fun c => (digit? c).isSome).take limit
  if digits.isEmpty then none
  else some (digits.foldl (fun n c => 10 * n + (digit? c).getD 0) 0, s.drop digits.length)

theorem toNat_of_isDigit {c : Char} (h : c.isDigit = true) : 48 ≤ c.toNat ∧ c.toNat ≤ 57 := by
  simpa [Char.isDigit, UInt32.le_iff_toNat_le] using h

theorem digit?_of_isDigit {c : Char} (h : c.isDigit = true) : digit? c = some (c.toNat - 48) :=
  if_pos (toNat_of_isDigit h)

theorem le_ofDigitChars (n : Nat) (digits : List Char) : n ≤ Nat.ofDigitChars 10 digits n := by
  induction digits generalizing n with
  | nil => exact Nat.le_refl n
  | cons c digits ih =>
    have hc := ih (10 * n + (c.toNat - '0'.toNat))
    rw [Nat.ofDigitChars_cons]
    omega

theorem readDigits_eq {n : Nat} {digits : List Char} (hd : ∀ c ∈ digits, c.isDigit = true)
    (hn : Nat.ofDigitChars 10 digits n < UInt64.size) :
    readDigits n digits = .ok (Nat.ofDigitChars 10 digits n) := by
  induction digits generalizing n with
  | nil => rfl
  | cons c digits ih =>
    have hfit : 10 * n + (c.toNat - 48) < UInt64.size :=
      Nat.lt_of_le_of_lt (le_ofDigitChars (10 * n + (c.toNat - 48)) digits) hn
    rw [readDigits, digit?_of_isDigit (hd c List.mem_cons_self)]
    dsimp only
    rw [if_pos hfit]
    exact ih (fun x hx => hd x (List.mem_cons_of_mem c hx)) hn

theorem isDigit_of_mem_ofNat {n : Nat} {c : Char} (h : c ∈ ofNat n) : c.isDigit = true :=
  Nat.isDigit_of_mem_toDigits (by decide) (by decide) h

theorem leading?_append {limit : Nat} {digits rest : List Char}
    (hd : ∀ c ∈ digits, c.isDigit = true) (hne : digits ≠ []) (hl : digits.length ≤ limit)
    (hr : ∀ c ∈ rest.head?, digit? c = none) :
    leading? limit (digits ++ rest) = some (Nat.ofDigitChars 10 digits 0, rest) := by
  have hsome : ∀ c ∈ digits, (digit? c).isSome = true := by
    intro c hc
    simp [digit?_of_isDigit (hd c hc)]
  have hstop : rest.takeWhile (fun c => (digit? c).isSome) = [] := by
    cases rest with
    | nil => rfl
    | cons c rest => simp [hr c rfl]
  have hvalue : ∀ n, digits.foldl (fun n c => 10 * n + (digit? c).getD 0) n =
      Nat.ofDigitChars 10 digits n := by
    clear hne hl hsome
    induction digits with
    | nil => exact fun _ => rfl
    | cons c digits ih =>
      intro n
      rw [List.foldl_cons, ih (fun x hx => hd x (List.mem_cons_of_mem c hx)), Nat.ofDigitChars_cons,
        digit?_of_isDigit (hd c List.mem_cons_self)]
      rfl
  have hfront : ((digits ++ rest).takeWhile fun c => (digit? c).isSome).take limit = digits := by
    rw [List.takeWhile_append_of_pos hsome, hstop, List.append_nil, List.take_of_length_le hl]
  simp only [leading?, hfront, hvalue, List.isEmpty_iff, hne, if_false, List.drop_left]

theorem parse_ofNat (n : UInt64) : parse (ofNat n.toNat) = .ok n := by
  have hvalue : Nat.ofDigitChars 10 (ofNat n.toNat) 0 = n.toNat :=
    Nat.ofDigitChars_toDigits (by decide) (by decide)
  have hfit : Nat.ofDigitChars 10 (ofNat n.toNat) 0 < UInt64.size := by
    rw [hvalue]
    exact n.toNat_lt
  have hread : readDigits 0 (ofNat n.toNat) = .ok n.toNat := by
    rw [readDigits_eq (fun c hc => isDigit_of_mem_ofNat hc) hfit, hvalue]
  have hplus : '+' ∉ ofNat n.toNat := fun h => absurd (isDigit_of_mem_ofNat h) (by decide)
  rw [parse.eq_def]
  split
  · next h => exact absurd h Nat.toDigits_ne_nil
  · next h => exact absurd (h ▸ List.mem_cons_self) hplus
  · next h => exact absurd (h ▸ List.mem_cons_self) hplus
  · rw [hread]
    exact congrArg Except.ok (UInt64.ofNat_toNat)

end Numeral

end Telemetry.Text

namespace Telemetry

inductive Value
  | bool (b : Bool)
  | int32 (n : Int32)
  | uint32 (n : UInt32)
  | int64 (n : Int64)
  | uint64 (n : UInt64)
  | double (bits : UInt64)
  | text (s : List Char)
  | bytes (bs : List UInt8)
  | array (vs : List Value)
  | tuple (vs : List Value)
  deriving Repr, Inhabited

namespace Value

mutual

def same : Value → Value → Bool
  | bool a, bool b => a == b
  | int32 a, int32 b => a == b
  | uint32 a, uint32 b => a == b
  | int64 a, int64 b => a == b
  | uint64 a, uint64 b => a == b
  | double a, double b => a == b
  | text a, text b => a == b
  | bytes a, bytes b => a == b
  | array as, array bs => sameAll as bs
  | tuple as, tuple bs => sameAll as bs
  | _, _ => false

def sameAll : List Value → List Value → Bool
  | [], [] => true
  | a :: as, b :: bs => same a b && sameAll as bs
  | _, _ => false

end

mutual

theorem same_iff : (a b : Value) → (same a b = true ↔ a = b)
  | bool a, b => by cases b <;> simp [same]
  | int32 a, b => by cases b <;> simp [same]
  | uint32 a, b => by cases b <;> simp [same]
  | int64 a, b => by cases b <;> simp [same]
  | uint64 a, b => by cases b <;> simp [same]
  | double a, b => by cases b <;> simp [same]
  | text a, b => by cases b <;> simp [same]
  | bytes a, b => by cases b <;> simp [same]
  | array as, b => by cases b <;> simp [same, sameAll_iff as]
  | tuple as, b => by cases b <;> simp [same, sameAll_iff as]

theorem sameAll_iff : (as bs : List Value) → (sameAll as bs = true ↔ as = bs)
  | [], bs => by cases bs <;> simp [sameAll]
  | a :: as, bs => by
    cases bs with
    | nil => simp [sameAll]
    | cons b bs => simp [sameAll, same_iff a b, sameAll_iff as bs]

end

instance : DecidableEq Value := fun a b => decidable_of_iff _ (same_iff a b)

mutual

def depth : Value → Nat
  | array vs => 1 + depthAll vs
  | tuple vs => 1 + depthAll vs
  | _ => 0

def depthAll : List Value → Nat
  | [] => 0
  | v :: vs => max (depth v) (depthAll vs)

end

end Value

/-- An optional value. No value is distinct from every value. -/
abbrev Payload := Option Value

def Payload.ofParts (present : Bool) (v : Value) : Payload := if present then some v else none

end Telemetry

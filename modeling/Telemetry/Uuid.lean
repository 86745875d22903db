import Telemetry.Codec.Decoder
import Telemetry.Digest.Sha1
import Telemetry.Text.Hex

namespace Telemetry

open Codec Text

structure Uuid where
  bytes : Bytes
  length_bytes : bytes.length = 16
  deriving DecidableEq, Repr

namespace Uuid

def ofBytes? (bytes : Bytes) : Option Uuid :=
  if h : bytes.length = 16 then some ⟨bytes, h⟩ else none

def nil : Uuid := ⟨List.replicate 16 0, rfl⟩

instance : Inhabited Uuid := ⟨nil⟩

@[ext] theorem ext {a b : Uuid} (h : a.bytes = b.bytes) : a = b := by
  cases a; cases b; simp_all

theorem ofBytes?_bytes (u : Uuid) : ofBytes? u.bytes = some u := by
  simp [ofBytes?, u.length_bytes]

def before (a b : Uuid) : Bool := a.bytes < b.bytes

def toChars (u : Uuid) : List Char :=
  let group (start length : Nat) := Hex.encode ((u.bytes.drop start).take length)
  group 0 4 ++ '-' :: group 4 2 ++ '-' :: group 6 2 ++ '-' :: group 8 2 ++ '-' :: group 10 6

def toString (u : Uuid) : String := String.ofList u.toChars

def dropHyphens? (s : List Char) : Option (List Char) :=
  let places := [8, 13, 18, 23]
  if places.all (fun i => s[i]? = some '-') then
    some ((s.zipIdx.filter fun (_, i) => i ∉ places).map Prod.fst)
  else none

/-- Reads 32 digits, the hyphenated form of 36 characters, that form in braces, or that form after
`urn:uuid:` in letters of either case. -/
def parse? (s : List Char) : Option Uuid :=
  let digits? :=
    match s.length with
    | 32 => some s
    | 36 => dropHyphens? s
    | 38 =>
      if s.head? = some '{' ∧ s.getLast? = some '}' then dropHyphens? ((s.drop 1).take 36)
      else none
    | 45 =>
      if (s.take 9).map Char.toLower = "urn:uuid:".toList then dropHyphens? (s.drop 9) else none
    | _ => none
  digits?.bind fun digits => (Hex.decode? digits).bind ofBytes?

def markNamed (bytes : Bytes) : Bytes :=
  bytes.zipIdx.map fun (b, i) =>
    if i = 6 then (b &&& 0x0F) ||| 0x50
    else if i = 8 then (b &&& 0x3F) ||| 0x80
    else b

/-- The identifier of a name within the namespace of another identifier. -/
def named (space : Uuid) (name : Bytes) : Uuid :=
  ⟨markNamed ((Digest.Sha1.digest (space.bytes ++ name)).take 16), by
    simp [markNamed, Digest.Sha1.length_digest]⟩

def encode (u : Uuid) : Bytes := le 8 16 ++ u.bytes

def decoder : Decoder Uuid := do
  let bytes ← Decoder.block
  match ofBytes? bytes with
  | some u => return u
  | none => Decoder.fail (.uuidLength bytes.length)

end Uuid

abbrev EventId := Uuid

namespace EventId

inductive Fault
  | length (found : Nat)
  | unreadable (text : List Char)
  deriving DecidableEq, Repr

def Fault.message : Fault → String
  | .length found =>
    "Event ID must be a UUID represented as an array of 16 bytes, got " ++ toString found
  | .unreadable text => "Failed to parse event id '" ++ String.ofList text ++ "'"

def ofBytes (bytes : Bytes) : Except Fault EventId :=
  match Uuid.ofBytes? bytes with
  | some id => .ok id
  | none => .error (.length bytes.length)

def parse (text : List Char) : Except Fault EventId :=
  match Uuid.parse? text with
  | some id => .ok id
  | none => .error (.unreadable text)

/-- The identifier under which the monthly counts of an event are kept. -/
def monthly (id : EventId) : EventId := Uuid.named id (Utf8.encode "monthly".toList)

end EventId

end Telemetry

import Telemetry.Decimal.Written
import Telemetry.Payload.Value
import Telemetry.Text.Json
import Telemetry.Text.Quoted

namespace Telemetry.Value

open Text Decimal

def truth (b : Bool) : List Char := (if b then "true" else "false").toList

def kind : Value → List Char
  | bool _ => "Bool".toList
  | int32 _ => "Int32".toList
  | uint32 _ => "UInt32".toList
  | int64 _ => "Int64".toList
  | uint64 _ => "UInt64".toList
  | double _ => "Double".toList
  | text _ => "String".toList
  | bytes _ => "Bytes".toList
  | array _ => "Array".toList
  | tuple _ => "Tuple".toList

def listed (items : List (List Char)) : List Char :=
  '[' :: ((items.intersperse ", ".toList).flatten) ++ [']']

mutual

def content : Value → List Char
  | bool b => truth b
  | int32 n => integer n.toInt
  | uint32 n => integer n.toNat
  | int64 n => integer n.toInt
  | uint64 n => integer n.toNat
  | double bits => plain.write (.ofBits bits)
  | text s => Quoted.encode s
  | bytes bs => listed (bs.map fun b => integer b.toNat)
  | array vs => listed (shownAll vs)
  | tuple vs => listed (shownAll vs)

def shownAll : List Value → List (List Char)
  | [] => []
  | v :: vs => (kind v ++ '(' :: content v ++ [')']) :: shownAll vs

end

def shown (v : Value) : List Char := kind v ++ '(' :: content v ++ [')']

mutual

def jsonContent : Value → Json
  | bool b => .bare (truth b)
  | int32 n => .bare (integer n.toInt)
  | uint32 n => .bare (integer n.toNat)
  | int64 n => .bare (integer n.toInt)
  | uint64 n => .bare (integer n.toNat)
  | double bits => .bare (json.write (.ofBits bits))
  | text s => .text s
  | bytes bs => .array (bs.map fun b => .bare (integer b.toNat))
  | array vs => .array (jsonAll vs)
  | tuple vs => .array (jsonAll vs)

def jsonAll : List Value → List Json
  | [] => []
  | v :: vs => .object [(kind v, jsonContent v)] :: jsonAll vs

end

def toJson (v : Value) : Json := .object [(kind v, jsonContent v)]

end Telemetry.Value

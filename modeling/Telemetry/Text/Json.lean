import Telemetry.Text.Hex

namespace Telemetry.Text

inductive Json
  | bare (s : List Char)
  | text (s : List Char)
  | array (items : List Json)
  | object (members : List (List Char × Json))
  deriving Repr

namespace Json

def null : Json := bare "null".toList

def escape (c : Char) : List Char :=
  if c = '"' then ['\\', '"']
  else if c = '\\' then ['\\', '\\']
  else if c = '\x08' then ['\\', 'b']
  else if c = '\x0c' then ['\\', 'f']
  else if c = '\n' then ['\\', 'n']
  else if c = '\r' then ['\\', 'r']
  else if c = '\t' then ['\\', 't']
  else if c.toNat < 32 then "\\u00".toList ++ Hex.encodeOctet (UInt8.ofNat c.toNat)
  else [c]

def quote (s : List Char) : List Char := '"' :: s.flatMap escape ++ ['"']

def newline (depth : Nat) : List Char := '\n' :: List.replicate (2 * depth) ' '

mutual

def write (depth : Nat) : Json → List Char
  | bare s => s
  | text s => quote s
  | array [] => ['[', ']']
  | array (item :: items) =>
    '[' :: newline (depth + 1) ++ write (depth + 1) item ++ writeItems (depth + 1) items
      ++ newline depth ++ [']']
  | object [] => ['{', '}']
  | object ((name, value) :: members) =>
    '{' :: newline (depth + 1) ++ quote name ++ ':' :: ' ' :: write (depth + 1) value
      ++ writeMembers (depth + 1) members ++ newline depth ++ ['}']

def writeItems (depth : Nat) : List Json → List Char
  | [] => []
  | item :: items => ',' :: newline depth ++ write depth item ++ writeItems depth items

def writeMembers (depth : Nat) : List (List Char × Json) → List Char
  | [] => []
  | (name, value) :: members =>
    ',' :: newline depth ++ quote name ++ ':' :: ' ' :: write depth value
      ++ writeMembers depth members

end

def pretty (j : Json) : List Char := write 0 j

end Json

end Telemetry.Text

import Telemetry.Text.Utf8

namespace Telemetry

open Text

structure Path where
  text : List Char
  deriving DecidableEq, Repr

namespace Path

def maxSize : Nat := 4095

def maxNameSize : Nat := 255

def up : List Char := "..".toList

def join (base : Path) : List Char → Path
  | '/' :: rest => ⟨'/' :: rest⟩
  | text => ⟨base.text ++ '/' :: text⟩

def wellFormed (p : Path) : Bool := '\x00' ∉ p.text ∧ Utf8.size p.text ≤ maxSize

def split (name : List Char) : List Char → List (List Char)
  | [] => [name.reverse]
  | c :: rest => if c = '/' then name.reverse :: split [] rest else split (c :: name) rest

/-- The names on the way, those that say nothing left out. -/
def names (p : Path) : List (List Char) :=
  (split [] p.text).filter fun name => name ≠ [] ∧ name ≠ ['.']

def bare : List Char → List Char
  | '/' :: rest => bare rest
  | '.' :: '/' :: rest => bare rest
  | back => back

def asksDirectory (p : Path) : Bool := bare p.text.reverse ≠ p.text.reverse

def name (p : Path) : List Char := ((bare p.text.reverse).takeWhile (· ≠ '/')).reverse

def front (p : Path) : List Char := ((bare p.text.reverse).dropWhile (· ≠ '/')).reverse

def parent (p : Path) : Path := ⟨(bare p.front.reverse).reverse⟩

def stem (name : List Char) : List Char :=
  match name.reverse.dropWhile (· ≠ '.') with
  | [] => name
  | [_] => name
  | _ :: before => before.reverse

/-- The path of a temporary sibling: the last name gets the extension `tmp`. There is none for the
root and for a path that leads back up. A name such as `..x` at the very end leads back up as well:
the extension goes first, and that leaves two dots. -/
def temporary? (p : Path) : Option Path :=
  if p.name = [] ∨ p.name = up ∨ (stem p.name = ['.'] ∧ !p.asksDirectory) then none
  else some ⟨p.front ++ stem p.name ++ ".tmp".toList⟩

end Path

end Telemetry

import Telemetry.Compress.Bits
import Telemetry.SumOf

namespace Telemetry.Compress

/-- How many words there are of each length from 1 to 15, and the symbols in the order of their
words. -/
structure Huffman where
  counts : List Nat
  symbols : Array Nat
  deriving Repr

namespace Huffman

def lengthRange : List Nat := (List.range 15).map (· + 1)

def covered (counts : List Nat) : Nat :=
  sumOf (fun (n, length) => n <<< (15 - length)) (counts.zip lengthRange)

def admissible (counts : List Nat) : Bool :=
  let words := sumOf id counts
  covered counts = 32768 || words = 0 || (words = 1 && covered counts = 16384)

def ofLengths? (lengths : List Nat) : Option Huffman :=
  let counts := lengthRange.map fun length => lengths.count length
  let symbols := lengthRange.flatMap fun length =>
    lengths.zipIdx.filterMap fun (l, symbol) => if l = length then some symbol else none
  if admissible counts then some ⟨counts, symbols.toArray⟩ else none

/-- Reads a word bit by bit. `code` are the bits read so far, `first` is the first word of their
length, and `index` the place of its symbol. -/
def decodeFrom (symbols : Array Nat) (code first index : Nat) :
    List Nat → Bits → Option (Nat × Bits)
  | [], _ => none
  | count :: counts, s =>
    match s.take 1 with
    | none => none
    | some (bit, s) =>
      let code := code + bit
      if code < first + count then (symbols[index + (code - first)]?).map fun symbol => (symbol, s)
      else decodeFrom symbols (2 * code) (2 * (first + count)) (index + count) counts s

def decode (h : Huffman) (s : Bits) : Option (Nat × Bits) := decodeFrom h.symbols 0 0 0 h.counts s

end Huffman

end Telemetry.Compress

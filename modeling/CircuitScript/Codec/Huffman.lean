/-!
Canonical Huffman codes, given by the lengths of their code words.
-/
namespace CircuitScript

/-- A code as a tree: a word is a path, a zero bit going left. -/
inductive CodeTree
  | empty
  | leaf (symbol : Nat)
  | node (zero one : CodeTree)
  deriving Repr, Inhabited

namespace CodeTree

/-- Adds a word for a symbol. -/
def insert (symbol : Nat) : List Bool → CodeTree → CodeTree
  | [], _ => leaf symbol
  | false :: word, node zero one => node (insert symbol word zero) one
  | true :: word, node zero one => node zero (insert symbol word one)
  | false :: word, _ => node (insert symbol word empty) empty
  | true :: word, _ => node empty (insert symbol word empty)

/-- The symbol of the word at the front, and the bits after it. -/
def decode? : CodeTree → List Bool → Option (Nat × List Bool)
  | empty, _ => none
  | leaf symbol, bits => some (symbol, bits)
  | node _ _, [] => none
  | node zero one, bit :: bits => if bit then one.decode? bits else zero.decode? bits

/-- The lowest bits of a number, the highest of them first. -/
def wordBits : Nat → Nat → List Bool
  | 0, _ => []
  | length + 1, code => code.testBit length :: wordBits length code

/-- Adds words for the symbols, each one after the last in numeric order, a longer one with zeros
appended. -/
def addWords (tree : CodeTree) (code length : Nat) : List (Nat × Nat) → CodeTree
  | [] => tree
  | (own, symbol) :: rest =>
    let code := code * Nat.pow 2 (own - length)
    addWords (tree.insert symbol (wordBits own code)) (code + 1) own rest

/-- The symbols that have a word, with the length of the word, shorter words first. -/
def usedSymbols (lengths : List Nat) : List (Nat × Nat) :=
  let all := lengths.zipIdx.filter fun (length, _) => length ≠ 0
  (List.range 16).flatMap fun length => all.filter fun (own, _) => own = length

/-- The code words fill the tree. A code of at most one word need not, unless `full` is asked
for. -/
def isComplete (full : Bool) (used : List (Nat × Nat)) : Bool :=
  used.foldl (fun sum (length, _) => sum + Nat.pow 2 (16 - length)) 0 == Nat.pow 2 16 ||
    (!full && used.length ≤ 1)

/-- The canonical code with the given lengths, none of them above fifteen. -/
def ofLengths? (full : Bool) (lengths : List Nat) : Option CodeTree :=
  let used := usedSymbols lengths
  if isComplete full used then some (addWords empty 0 0 used) else none

end CodeTree

end CircuitScript

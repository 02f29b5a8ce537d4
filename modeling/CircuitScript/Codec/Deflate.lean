import CircuitScript.Codec.Huffman
/-!
The deflate format: reading all of it, and writing its stored blocks.
-/
namespace CircuitScript.Deflate

/-- The bits of a byte, lowest first. -/
def byteBits (byte : UInt8) : List Bool := (List.range 8).map byte.toNat.testBit

/-- The number that some bits write, lowest first. -/
def ofBits : List Bool → Nat
  | [] => 0
  | bit :: rest => bit.toNat + 2 * ofBits rest

abbrev Reader := StateT (List Bool) Option

def fails {α : Type} : Reader α := fun _ => none

/-- A number of `count` bits. -/
def bits (count : Nat) : Reader Nat := fun input =>
  let front := input.take count
  if front.length = count then some (ofBits front, input.drop count) else none

/-- Skips to the next byte. -/
def align : Reader Unit := modify fun input => input.drop (input.length % 8)

def symbol (tree : CodeTree) : Reader Nat := fun input => tree.decode? input

/-- Copies `count` bytes from `distance` back, which may run into what is being copied. -/
def copyBack (distance : Nat) : Nat → Array UInt8 → Option (Array UInt8)
  | 0, output => some output
  | count + 1, output =>
    if 0 < distance ∧ distance ≤ output.size then
      copyBack distance count (output.push (output.getD (output.size - distance) 0))
    else none

/-- `count` bytes as they are. -/
def plainBytes : Nat → Array UInt8 → Reader (Array UInt8)
  | 0, output => pure output
  | count + 1, output => do
    let byte ← bits 8
    plainBytes count (output.push (UInt8.ofNat byte))

/-- The length of the longest stored block: all sixteen bits are set. -/
def maxStored : Nat := 65535

/-- A stored block, whose length is written twice, the second time inverted. -/
def storedBlock (output : Array UInt8) : Reader (Array UInt8) := do
  align
  let length ← bits 16
  let inverted ← bits 16
  if length + inverted = maxStored then plainBytes length output else fails

/-- The least length of a length code from 257 on, and its extra bits. -/
def lengthCodes : List (Nat × Nat) :=
  [(3, 0), (4, 0), (5, 0), (6, 0), (7, 0), (8, 0), (9, 0), (10, 0), (11, 1), (13, 1), (15, 1),
   (17, 1), (19, 2), (23, 2), (27, 2), (31, 2), (35, 3), (43, 3), (51, 3), (59, 3), (67, 4),
   (83, 4), (99, 4), (115, 4), (131, 5), (163, 5), (195, 5), (227, 5), (258, 0)]

/-- The least distance of a distance code, and its extra bits. -/
def distanceCodes : List (Nat × Nat) :=
  [(1, 0), (2, 0), (3, 0), (4, 0), (5, 1), (7, 1), (9, 2), (13, 2), (17, 3), (25, 3), (33, 4),
   (49, 4), (65, 5), (97, 5), (129, 6), (193, 6), (257, 7), (385, 7), (513, 8), (769, 8), (1025, 9),
   (1537, 9), (2049, 10), (3073, 10), (4097, 11), (6145, 11), (8193, 12), (12289, 12), (16385, 13),
   (24577, 13)]

/-- A number from a table of least values and extra bits. -/
def fromTable (table : List (Nat × Nat)) (code : Nat) : Reader Nat := do
  match table[code]? with
  | some (least, extra) => return least + (← bits extra)
  | none => fails

/-- Literals and matches up to the end of a block. Each takes at least one bit. -/
def codedBlock (literals distances : CodeTree) : Nat → Array UInt8 → Reader (Array UInt8)
  | 0, _ => fails
  | fuel + 1, output => do
    let code ← symbol literals
    if code < 256 then codedBlock literals distances fuel (output.push (UInt8.ofNat code))
    else if code = 256 then return output
    else
      let length ← fromTable lengthCodes (code - 257)
      let distance ← fromTable distanceCodes (← symbol distances)
      match copyBack distance length output with
      | some output => codedBlock literals distances fuel output
      | none => fails

/-- The lengths of the fixed literal code. -/
def fixedLiteralLengths : List Nat :=
  List.replicate 144 8 ++ List.replicate 112 9 ++ List.replicate 24 7 ++ List.replicate 8 8

/-- The fixed codes for literals and distances. -/
def fixedCodes? : Option (CodeTree × CodeTree) := do
  some (← CodeTree.ofLengths? false fixedLiteralLengths,
    ← CodeTree.ofLengths? false (List.replicate 32 5))

/-- The order in which the lengths of the length code are written. -/
def lengthOrder : List Nat := [16, 17, 18, 0, 8, 7, 9, 6, 10, 5, 11, 4, 12, 3, 13, 2, 14, 1, 15]

/-- The numbers of `count` times three bits. -/
def triples : Nat → Reader (List Nat)
  | 0 => pure []
  | count + 1 => return (← bits 3) :: (← triples count)

/-- Code lengths until there are `total`, with runs of the last one or of zeros. The lengths read so
far are in reverse. -/
def codeLengths (tree : CodeTree) (total : Nat) : Nat → List Nat → Reader (List Nat)
  | 0, _ => fails
  | fuel + 1, known =>
    if total < known.length then fails
    else if total = known.length then return known.reverse
    else do
      let code ← symbol tree
      let run := fun (count value : Nat) =>
        codeLengths tree total fuel (List.replicate count value ++ known)
      if code < 16 then run 1 code
      else if code = 16 then
        match known with
        | last :: _ => run ((← bits 2) + 3) last
        | [] => fails
      else if code = 17 then run ((← bits 3) + 3) 0
      else run ((← bits 7) + 11) 0

/-- The codes that a block brings with it. -/
def dynamicCodes : Reader (CodeTree × CodeTree) := do
  let literalCount ← (· + 257) <$> bits 5
  let distanceCount ← (· + 1) <$> bits 5
  let lengthCount ← (· + 4) <$> bits 4
  let written ← triples lengthCount
  let order := lengthOrder.zip written
  let lengths := (List.range 19).map fun code => (order.lookup code).getD 0
  let tree ← StateT.lift (CodeTree.ofLengths? true lengths)
  let total := literalCount + distanceCount
  let all ← codeLengths tree total (total + 1) []
  let literals ← StateT.lift (CodeTree.ofLengths? false (all.take literalCount))
  let distances ← StateT.lift (CodeTree.ofLengths? false (all.drop literalCount))
  return (literals, distances)

/-- Blocks up to the one that is marked as the last. -/
def blocks : Nat → Array UInt8 → Reader (Array UInt8)
  | 0, _ => fails
  | fuel + 1, output => do
    let last ← bits 1
    let kind ← bits 2
    let output ←
      match kind with
      | 0 => storedBlock output
      | 1 =>
        let (literals, distances) ← StateT.lift fixedCodes?
        codedBlock literals distances ((← get).length + 1) output
      | 2 =>
        let (literals, distances) ← dynamicCodes
        codedBlock literals distances ((← get).length + 1) output
      | _ => fails
    if last = 1 then return output else blocks fuel output

/-- The bytes that a deflate stream holds. -/
def inflate : Reader (Array UInt8) := do blocks ((← get).length + 1) #[]

/-- A number of two bytes, lower one first. -/
def word (n : Nat) : List UInt8 := [UInt8.ofNat n, UInt8.ofNat (n / 256)]

/-- The bytes in stored blocks, each of at most `maxStored` bytes. -/
def store (bytes : List UInt8) : List UInt8 :=
  let front := bytes.take maxStored
  let header := fun last : UInt8 => last :: word front.length ++ word (maxStored - front.length)
  if _ : bytes.length ≤ maxStored then header 1 ++ front
  else header 0 ++ front ++ store (bytes.drop maxStored)
termination_by bytes.length
decreasing_by
  rename_i h
  simp only [maxStored, List.length_drop] at h ⊢
  omega

end CircuitScript.Deflate

import CircuitScript.Codec.Deflate
/-!
The zlib format: a deflate stream between a header and a checksum.
-/
namespace CircuitScript.Zlib

/-- The Adler checksum. -/
def checksum (bytes : List UInt8) : Nat :=
  let (a, b) := bytes.foldl
    (fun (a, b) byte =>
      let a := (a + byte.toNat) % 65521
      (a, (b + a) % 65521))
    (1, 0)
  b * 65536 + a

/-- The header of a stream that needs no dictionary and a window of at most 32 KiB. -/
def isHeader (method flags : UInt8) : Bool :=
  (method.toNat * 256 + flags.toNat) % 31 == 0 && method.toNat % 16 == 8 &&
    method.toNat / 16 ≤ 7 && !flags.toNat.testBit 5

/-- The four bytes of a number, highest first. -/
def bigEndian (n : Nat) : List UInt8 :=
  [UInt8.ofNat (n / 16777216), UInt8.ofNat (n / 65536), UInt8.ofNat (n / 256), UInt8.ofNat n]

/-- The content of a stream. What follows the stream is ignored. -/
def decompress? : List UInt8 → Option (List UInt8)
  | method :: flags :: rest =>
    if isHeader method flags then do
      let (output, left) ← Deflate.inflate (rest.flatMap Deflate.byteBits)
      let bytes := output.toList
      let tail := rest.drop (rest.length - left.length / 8)
      if tail.take 4 = bigEndian (checksum bytes) then some bytes else none
    else none
  | _ => none

/-- A stream that stores the content as it is. -/
def compress (bytes : List UInt8) : List UInt8 :=
  [0x78, 0x01] ++ Deflate.store bytes ++ bigEndian (checksum bytes)

end CircuitScript.Zlib

import CircuitScript.Blueprint.Exchange
import Mathlib.Data.List.GetD
import Mathlib.Tactic.Ring
/-!
Unpacking inverts packing: base64 and stored deflate blocks give every text back.
-/
namespace CircuitScript

/-- A byte is known by its value. -/
theorem uint8_ofNat_eq (byte : UInt8) {n : Nat} (h : n % 256 = byte.toNat) :
    UInt8.ofNat n = byte := by
  apply UInt8.toNat_inj.1
  rw [UInt8.toNat_ofNat', ← h]

namespace Base64

theorem value?_symbol : ∀ n < 64, value? (symbol n) = some n := by decide +kernel

theorem symbol_ne_pad : ∀ n < 64, symbol n ≠ '=' := by decide +kernel

theorem isBlank_symbol (n : Nat) : Text.isBlank (symbol n) = false := by
  have hall : ('A' :: alphabet).all (fun c => !Text.isBlank c) = true := by decide +kernel
  have hmem : symbol n ∈ 'A' :: alphabet := by
    unfold symbol
    by_cases h : n < alphabet.length
    · rw [List.getD_eq_getElem _ _ h]
      exact List.mem_cons_of_mem _ (List.getElem_mem h)
    · rw [List.getD_eq_default _ _ (Nat.le_of_not_lt h)]
      exact List.mem_cons_self
  simpa using List.all_eq_true.1 hall _ hmem

theorem isBlank_of_mem_encode {bytes : List UInt8} {c : Char} (h : c ∈ encode bytes) :
    Text.isBlank c = false := by
  fun_induction encode bytes with
  | case1 => simp at h
  | case2 a n =>
    simp only [List.mem_cons, List.not_mem_nil, or_false] at h
    rcases h with rfl | rfl | rfl | rfl
    · exact isBlank_symbol _
    · exact isBlank_symbol _
    · decide
    · decide
  | case3 a b n =>
    simp only [List.mem_cons, List.not_mem_nil, or_false] at h
    rcases h with rfl | rfl | rfl | rfl
    · exact isBlank_symbol _
    · exact isBlank_symbol _
    · exact isBlank_symbol _
    · decide
  | case4 a b c rest n ih =>
    simp only [List.mem_cons] at h
    rcases h with rfl | rfl | rfl | rfl | h
    · exact isBlank_symbol _
    · exact isBlank_symbol _
    · exact isBlank_symbol _
    · exact isBlank_symbol _
    · exact ih h

/-- A full group of four characters that needs no padding. -/
theorem decode?_group {p q r s : Nat} (hp : p < 64) (hq : q < 64) (hr : r < 64) (hs : s < 64)
    (rest : List Char) :
    decode? (symbol p :: symbol q :: symbol r :: symbol s :: rest) =
      (decode? rest).map fun bytes =>
        let n := ((p * 64 + q) * 64 + r) * 64 + s
        UInt8.ofNat (n / 65536) :: UInt8.ofNat (n / 256) :: UInt8.ofNat n :: bytes := by
  rw [decode?]
  · rw [value?_symbol p hp, value?_symbol q hq, value?_symbol r hr, value?_symbol s hs]
    cases decode? rest <;> rfl
  · rintro _ _
    exact absurd ‹_› (symbol_ne_pad r hr)
  · intro h
    exact absurd h (symbol_ne_pad s hs)

theorem decode?_encode (bytes : List UInt8) : decode? (encode bytes) = some bytes := by
  fun_induction encode bytes with
  | case1 => rfl
  | case2 a n =>
    have ha := a.toNat_lt
    have hn : n / 64 * 64 + n % 64 = n := by omega
    rw [decode?, value?_symbol _ (by omega), value?_symbol _ (by omega)]
    simp only [Option.bind_eq_bind, Option.bind_some, hn]
    rw [if_pos (by omega), uint8_ofNat_eq a (by omega)]
  | case3 a b n =>
    have ha := a.toNat_lt
    have hb := b.toNat_lt
    have hn : (n / 4096 * 64 + n / 64 % 64) * 64 + n % 64 = n := by omega
    rw [decode?, value?_symbol _ (by omega), value?_symbol _ (by omega),
      value?_symbol _ (by omega)]
    · simp only [Option.bind_eq_bind, Option.bind_some, hn]
      rw [if_pos (by omega), uint8_ofNat_eq a (by omega), uint8_ofNat_eq b (by omega)]
    · exact symbol_ne_pad _ (by omega)
  | case4 a b c rest n ih =>
    have ha := a.toNat_lt
    have hb := b.toNat_lt
    have hc := c.toNat_lt
    have hn : ((n / 262144 * 64 + n / 4096 % 64) * 64 + n / 64 % 64) * 64 + n % 64 = n := by omega
    rw [decode?_group (by omega) (by omega) (by omega) (by omega), ih]
    simp only [Option.map_some, hn]
    rw [uint8_ofNat_eq a (by omega), uint8_ofNat_eq b (by omega), uint8_ofNat_eq c (by omega)]

end Base64

namespace Deflate

/-- A byte stream, bit by bit. -/
def stream (bytes : List UInt8) : List Bool := bytes.flatMap byteBits

@[simp] theorem length_byteBits (byte : UInt8) : (byteBits byte).length = 8 := by
  simp [byteBits]

@[simp] theorem length_stream (bytes : List UInt8) : (stream bytes).length = 8 * bytes.length := by
  induction bytes with
  | nil => rfl
  | cons byte bytes ih =>
    rw [stream, List.flatMap_cons, List.length_append, length_byteBits, List.length_cons]
    rw [stream] at ih
    omega

@[simp] theorem stream_append (first second : List UInt8) :
    stream (first ++ second) = stream first ++ stream second :=
  List.flatMap_append

theorem stream_cons (byte : UInt8) (bytes : List UInt8) :
    stream (byte :: bytes) = byteBits byte ++ stream bytes :=
  List.flatMap_cons

theorem ofBits_byteBits (byte : UInt8) : ofBits (byteBits byte) = byte.toNat := by
  have hall : ∀ n < 256, ofBits ((List.range 8).map n.testBit) = n := by decide +kernel
  exact hall byte.toNat byte.toNat_lt

theorem ofBits_append (low high : List Bool) :
    ofBits (low ++ high) = ofBits low + 2 ^ low.length * ofBits high := by
  induction low with
  | nil => simp [ofBits]
  | cons bit low ih =>
    rw [List.cons_append, ofBits, ofBits, ih, List.length_cons, pow_succ]
    ring

theorem bits_append {count : Nat} {front : List Bool} (h : front.length = count)
    (rest : List Bool) : bits count (front ++ rest) = some (ofBits front, rest) := by
  subst h
  simp [bits]

theorem bits_word {n : Nat} (h : n < 65536) (rest : List Bool) :
    bits 16 (stream (word n) ++ rest) = some (n, rest) := by
  have hvalue : ofBits (stream (word n)) = n := by
    have hlow : (UInt8.ofNat n).toNat = n % 256 := UInt8.toNat_ofNat'
    have hhigh : (UInt8.ofNat (n / 256)).toNat = n / 256 % 256 := UInt8.toNat_ofNat'
    rw [word, stream_cons, ofBits_append, length_byteBits, ofBits_byteBits, hlow, stream_cons,
      ofBits_append, ofBits_byteBits, hhigh]
    simp [stream, ofBits]
    omega
  rw [bits_append (by simp [word]), hvalue]

/-- A reader goes on where the one before it stopped. -/
theorem bind_of_read {α β : Type} {reader : Reader α} {next : α → Reader β} {input rest : List Bool}
    {value : α} (h : reader input = some (value, rest)) :
    (reader >>= next) input = next value rest := by
  change (reader input).bind (fun read => next read.1 read.2) = _
  rw [h]
  rfl

theorem plainBytes_stream (bytes : List UInt8) (output : Array UInt8) (rest : List Bool) :
    plainBytes bytes.length output (stream bytes ++ rest) =
      some (output ++ bytes.toArray, rest) := by
  induction bytes generalizing output with
  | nil =>
    change some (output, rest) = some (output ++ #[], rest)
    rw [Array.append_empty]
  | cons byte bytes ih =>
    have hbyte := bits_append (length_byteBits byte) (stream bytes ++ rest)
    rw [stream_cons, List.append_assoc, List.length_cons, plainBytes, bind_of_read hbyte,
      ofBits_byteBits, UInt8.ofNat_toNat, ih]
    simp

/-- The length of a block in both forms, and its bytes. -/
def stored (bytes : List UInt8) : List UInt8 :=
  word bytes.length ++ word (maxStored - bytes.length) ++ bytes

/-- A stored block begins with the next byte. -/
theorem storedBlock_stream {bytes : List UInt8} (h : bytes.length ≤ maxStored)
    {skipped : List Bool} (hskipped : skipped.length < 8) (output : Array UInt8)
    (tail : List UInt8) :
    storedBlock output (skipped ++ stream (stored bytes ++ tail)) =
      some (output ++ bytes.toArray, stream tail) := by
  have halign : align (skipped ++ stream (stored bytes ++ tail)) =
      some ((), stream (stored bytes ++ tail)) := by
    have hdrop : (skipped ++ stream (stored bytes ++ tail)).length % 8 = skipped.length := by
      rw [List.length_append, length_stream]
      omega
    change some ((), List.drop _ _) = _
    rw [hdrop, List.drop_left]
  have hmax : maxStored = 65535 := rfl
  have hlength := bits_word (n := bytes.length) (by omega)
    (stream (word (maxStored - bytes.length)) ++ (stream bytes ++ stream tail))
  have hinverted := bits_word (n := maxStored - bytes.length) (by omega)
    (stream bytes ++ stream tail)
  rw [storedBlock, bind_of_read halign, stored]
  simp only [stream_append, List.append_assoc]
  rw [bind_of_read hlength, bind_of_read hinverted, if_pos (by omega), plainBytes_stream]

/-- The byte before a stored block says whether it is the last one. -/
theorem blocks_stored {bytes : List UInt8} (h : bytes.length ≤ maxStored) (last : Bool)
    (fuel : Nat) (output : Array UInt8) (tail : List UInt8) :
    blocks (fuel + 1) output (stream ((if last then 1 else 0) :: (stored bytes ++ tail))) =
      if last then some (output ++ bytes.toArray, stream tail)
      else blocks fuel (output ++ bytes.toArray) (stream tail) := by
  -- One bit marks the last block and two its kind; the block skips what is left of the byte.
  have hheader : byteBits (if last then 1 else 0) =
      [last] ++ ([false, false] ++ [false, false, false, false, false]) := by
    cases last <;> decide
  generalize hpad : [false, false, false, false, false] = padding at hheader
  have hlast : bits 1 ([last] ++ ([false, false] ++ (padding ++ stream (stored bytes ++ tail)))) =
      some (last.toNat, [false, false] ++ (padding ++ stream (stored bytes ++ tail))) :=
    bits_append (by rfl) _
  have hkind : bits 2 ([false, false] ++ (padding ++ stream (stored bytes ++ tail))) =
      some (0, padding ++ stream (stored bytes ++ tail)) :=
    bits_append (by rfl) _
  have hblock := storedBlock_stream h (by rw [← hpad]; decide : padding.length < 8) output tail
  rw [stream_cons, hheader, List.append_assoc, List.append_assoc, blocks, bind_of_read hlast,
    bind_of_read hkind]
  change (storedBlock output >>= fun output =>
    if last.toNat = 1 then pure output else blocks fuel output) _ = _
  rw [bind_of_read hblock]
  cases last <;> rfl

theorem store_eq (bytes : List UInt8) : store bytes =
    if bytes.length ≤ maxStored then 1 :: stored bytes
    else 0 :: stored (bytes.take maxStored) ++ store (bytes.drop maxStored) := by
  rw [store]
  split
  · next h => simp [stored, List.take_of_length_le h]
  · simp [stored]

theorem length_le_store (bytes : List UInt8) : bytes.length ≤ (store bytes).length := by
  induction bytes using store.induct with
  | case1 bytes h =>
    rw [store_eq, if_pos h]
    simp [stored]
    omega
  | case2 bytes h ih =>
    rw [store_eq, if_neg h]
    simp only [List.length_cons, List.length_append, stored, List.length_take,
      List.length_drop] at ih ⊢
    omega

/-- Stored blocks hold what was stored, and reading stops at their end. -/
theorem blocks_store (bytes : List UInt8) {fuel : Nat} (hfuel : bytes.length < fuel)
    (output : Array UInt8) (tail : List UInt8) :
    blocks fuel output (stream (store bytes ++ tail)) =
      some (output ++ bytes.toArray, stream tail) := by
  induction bytes using store.induct generalizing fuel output with
  | case1 bytes h =>
    obtain ⟨fuel, rfl⟩ : ∃ n, fuel = n + 1 := ⟨fuel - 1, by omega⟩
    rw [store_eq, if_pos h]
    exact blocks_stored h true fuel output tail
  | case2 bytes h ih =>
    obtain ⟨fuel, rfl⟩ : ∃ n, fuel = n + 1 := ⟨fuel - 1, by omega⟩
    have hfront : (bytes.take maxStored).length ≤ maxStored := by
      rw [List.length_take]
      omega
    have hblock := blocks_stored hfront false fuel output
      (store (bytes.drop maxStored) ++ tail)
    have hrest : (bytes.drop maxStored).length < fuel := by
      simp only [maxStored, List.length_drop] at h ⊢
      omega
    have hjoin : (bytes.take maxStored).toArray ++ (bytes.drop maxStored).toArray =
        bytes.toArray := by
      rw [List.append_toArray, List.take_append_drop]
    rw [store_eq, if_neg h, List.append_assoc, List.cons_append]
    refine hblock.trans ?_
    rw [if_neg Bool.false_ne_true, ih hrest, Array.append_assoc, hjoin]

theorem inflate_store (bytes tail : List UInt8) :
    inflate (stream (store bytes ++ tail)) = some (bytes.toArray, stream tail) := by
  have hlength := length_le_store bytes
  have hfuel : bytes.length < (stream (store bytes ++ tail)).length + 1 := by
    rw [length_stream, List.length_append]
    omega
  have hblocks := blocks_store bytes hfuel #[] tail
  rw [Array.empty_append] at hblocks
  exact hblocks

end Deflate

theorem Zlib.decompress?_compress (bytes : List UInt8) :
    Zlib.decompress? (Zlib.compress bytes) = some bytes := by
  have hheader : Zlib.isHeader 0x78 0x01 = true := by decide
  have hinflate := Deflate.inflate_store bytes (Zlib.bigEndian (Zlib.checksum bytes))
  have hlength : (Zlib.bigEndian (Zlib.checksum bytes)).length = 4 := rfl
  have hdrop : (Deflate.store bytes ++ Zlib.bigEndian (Zlib.checksum bytes)).length -
      (Deflate.stream (Zlib.bigEndian (Zlib.checksum bytes))).length / 8 =
        (Deflate.store bytes).length := by
    rw [List.length_append, Deflate.length_stream, hlength]
    omega
  unfold Deflate.stream at hinflate hdrop
  simp only [Zlib.compress, List.cons_append, List.nil_append, Zlib.decompress?, hheader, if_true,
    hinflate, Option.bind_eq_bind, Option.bind_some, hdrop, List.drop_left,
    List.take_of_length_le (Nat.le_of_eq hlength)]

theorem byteArray_toList (bytes : ByteArray) : bytes.toList = bytes.data.toList := by
  have hloop : ∀ i read, ByteArray.toList.loop bytes i read =
      read.reverse ++ bytes.data.toList.drop i := by
    intro i read
    fun_induction ByteArray.toList.loop bytes i read with
    | case1 i read h ih =>
      have hi : i < bytes.data.toList.length := h
      have hget : bytes.get! i = bytes.data.toList[i] := by
        change bytes.data[i]! = _
        rw [getElem!_pos bytes.data i h, Array.getElem_toList]
      rw [ih, List.drop_eq_getElem_cons hi, hget]
      simp
    | case2 i read h =>
      have hi : bytes.data.toList.length ≤ i := Nat.le_of_not_lt h
      rw [List.drop_eq_nil_of_le hi, List.append_nil]
  rw [ByteArray.toList, hloop]
  rfl

theorem trim_eq_self {cs : List Char} (h : ∀ c ∈ cs, Text.isBlank c = false) :
    Text.trim cs = cs := by
  have hdrop : ∀ {cs : List Char}, (∀ c ∈ cs, Text.isBlank c = false) →
      cs.dropWhile Text.isBlank = cs := by
    intro cs h
    cases cs with
    | nil => rfl
    | cons c cs => exact List.dropWhile_cons_of_neg (by simp [h c])
  rw [Text.trim, Text.trimEnd, hdrop h, hdrop fun c hc => h c (List.mem_reverse.1 hc),
    List.reverse_reverse]

theorem unpackDescription_packDescription (text : String) :
    unpackDescription (packDescription text) = .ok text := by
  have hblank : ∀ c ∈ exchangeVersion :: Base64.encode (Zlib.compress text.toUTF8.toList),
      Text.isBlank c = false := by
    intro c hc
    rcases List.mem_cons.1 hc with rfl | hc
    · decide
    · exact Base64.isBlank_of_mem_encode hc
  have htext : String.fromUTF8? ⟨text.toUTF8.toList.toArray⟩ = some text := by
    rw [byteArray_toList, Array.toArray_toList]
    exact dif_pos text.isValidUTF8
  simp only [unpackDescription, packDescription, String.toList_ofList, trim_eq_self hblank, if_true,
    Base64.decode?_encode, Zlib.decompress?_compress, pure_bind, htext]
  rfl

end CircuitScript

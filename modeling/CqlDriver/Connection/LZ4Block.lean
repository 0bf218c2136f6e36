import CqlDriver.Connection.DecodeMessage
import CqlDriver.Connection.EncodeMessage

/-!
# Compressing a body

The compressor makes room behind what the output holds, for a size of four bytes and for the
largest block that LZ4 may need, lets LZ4 write the block there, cuts the room off behind it, and
puts the size in place. LZ4 is a parameter, with what its documentation says. It takes no more
than `LZ4_MAX_INPUT_SIZE` bytes.

## Main definitions

* `LZ4Block` — the functions of LZ4
* `LZ4Block.Documented` — what their documentation says
* `LZ4Compressor.compressInto` — compressing behind what is in the output
* `LZ4Block.literals` — blocks without matches

## Main results

* `LZ4Compressor.compressInto_eq` — what is appended, and when it throws
* `LZ4Block.Documented.decompress_compressed` — what is appended can be decompressed
* `LZ4Block.documented_literals`
-/

namespace CqlDriver

open Math (bigEndian ofBigEndian)

/-- Copy bytes over those at an offset. -/
def overwrite (data : Bytes) (offset : Nat) (bytes : Bytes) : Bytes :=
  data.take offset ++ bytes ++ data.drop (offset + bytes.length)

/-- The functions of LZ4 for blocks. -/
structure LZ4Block where
  /-- The room for any block of so many bytes. -/
  compressBound : Int → Nat
  /-- The bytes that are written for a source into a destination of this capacity; none when
  compression fails. -/
  compressDefault : Bytes → Int → Bytes
  /-- `none` when the source is malformed. -/
  decompressSafe : Bytes → Nat → Option Bytes

namespace LZ4Block

/-- `LZ4_MAX_INPUT_SIZE`. -/
def maxInputSize : Nat := 0x7E000000

/-- What the documentation of LZ4 says. -/
structure Documented (lz4 : LZ4Block) : Prop where
  /-- The maximum output size in a worst case scenario, or 0 if the input is too large. -/
  compressBound : ∀ n : Nat, lz4.compressBound n = if n ≤ maxInputSize then n + n / 255 + 16 else 0
  /-- Compression is guaranteed to succeed with that capacity. -/
  succeeds : ∀ source capacity, source.length ≤ maxInputSize →
    (lz4.compressBound source.length : Int) ≤ capacity → lz4.compressDefault source capacity ≠ []
  length_le : ∀ source capacity, 0 ≤ capacity →
    ((lz4.compressDefault source capacity).length : Int) ≤ capacity
  fails : ∀ source capacity, maxInputSize < source.length → lz4.compressDefault source capacity = []
  inverse : ∀ source capacity, lz4.compressDefault source capacity ≠ [] →
    lz4.decompressSafe (lz4.compressDefault source capacity) source.length = some source

/-- Decompress what the compressor has appended. -/
def decompress (lz4 : LZ4Block) (source : Bytes) : Option Bytes :=
  lz4.decompressSafe (source.drop 4) (ofBigEndian (source.take 4))

/-- The functions as the decoder of the driver uses them. -/
def toLZ4 (lz4 : LZ4Block) : LZ4 where
  compress := fun source => lz4.compressDefault source (lz4.compressBound source.length)
  decompressSafe := lz4.decompressSafe

end LZ4Block

/-! ## The compressor -/

namespace LZ4Compressor

def compressFailed : Exception := logicException "lz4 compress failed, ret:"

/-- Compress the request frame's body. -/
def compressInto (lz4 : LZ4Block) (source output : Bytes) : Appended :=
  let sourceSize := source.length % 2 ^ 32
  let outputPreviousSize := output.length
  let outputAdditionSize := 4 + lz4.compressBound (intOfSize source.length)
  let output := output ++ List.replicate outputAdditionSize 0
  let block := lz4.compressDefault (source.take sourceSize) (intOfSize (outputAdditionSize - 4))
  let output := overwrite output (outputPreviousSize + 4) block
  if block.length = 0 then
    (output, some compressFailed)
  else
    let output := output.take (outputPreviousSize + 4 + block.length)
    (overwrite output outputPreviousSize (bigEndian 4 sourceSize), none)

/-- What is appended for a source. -/
def compressed (lz4 : LZ4Block) (source : Bytes) : Appended :=
  let bound := lz4.compressBound source.length
  let block := lz4.compressDefault source bound
  if block = [] then (List.replicate (4 + bound) 0, some compressFailed)
  else (bigEndian 4 source.length ++ block, none)

end LZ4Compressor

section Overwrite

variable {data before old bytes after : Bytes} {n : Nat}

/-- The bytes at the offset are replaced. -/
theorem overwrite_append (hold : old.length = bytes.length) :
    overwrite (before ++ (old ++ after)) before.length bytes = before ++ (bytes ++ after) := by
  rw [overwrite, List.take_left, ← List.append_assoc before, List.drop_left' (by simp [hold]),
    List.append_assoc]

theorem overwrite_nil : overwrite data n [] = data := by
  rw [overwrite, List.append_nil, List.length_nil, Nat.add_zero, List.take_append_drop]

end Overwrite

namespace LZ4Compressor

variable {lz4 : LZ4Block} {source output : Bytes}

/-- The room is made for the size and the block, and they are written there. -/
theorem compressInto_eq (hdocumented : lz4.Documented) (hlt : source.length < 2 ^ 31) :
    compressInto lz4 source output =
      (output ++ (compressed lz4 source).1, (compressed lz4 source).2) := by
  have hbound : lz4.compressBound source.length < 2 ^ 31 := by
    rw [hdocumented.compressBound]
    split
    next hle =>
      have hmax : source.length ≤ 0x7E000000 := hle
      omega
    · exact Nat.two_pow_pos 31
  have hsize : source.length % 2 ^ 32 = source.length := Nat.mod_eq_of_lt (by omega)
  have hcapacity : intOfSize (4 + lz4.compressBound source.length - 4) =
      lz4.compressBound source.length := by
    rw [Nat.add_sub_cancel_left, intOfSize_eq hbound]
  simp only [compressInto, compressed, intOfSize_eq hlt, hsize, List.take_length, hcapacity]
  generalize hblock : lz4.compressDefault source (lz4.compressBound source.length) = block
  by_cases hnone : block = []
  · subst hnone
    rw [overwrite_nil]
    simp
  · have hlength : ¬ block.length = 0 := mt List.length_eq_zero_iff.mp hnone
    have hle : block.length ≤ lz4.compressBound source.length := by
      have hroom := hdocumented.length_le source (lz4.compressBound source.length)
        (Int.natCast_nonneg _)
      rw [hblock] at hroom
      exact Int.ofNat_le.mp hroom
    -- the room behind the output: four bytes, the block, and what is cut off
    have hroom : List.replicate (4 + lz4.compressBound source.length) (0 : UInt8) =
        List.replicate 4 0 ++ (List.replicate block.length 0 ++
          List.replicate (lz4.compressBound source.length - block.length) 0) := by
      rw [List.replicate_append_replicate, List.replicate_append_replicate]
      congr 1
      omega
    have hwritten := @overwrite_append (output ++ List.replicate 4 0) (List.replicate block.length 0)
      block (List.replicate (lz4.compressBound source.length - block.length) 0)
      List.length_replicate
    have hcut : (output ++ List.replicate 4 0 ++ (block ++
        List.replicate (lz4.compressBound source.length - block.length) 0)).take
          (output.length + 4 + block.length) = output ++ (List.replicate 4 0 ++ block) := by
      have hlength : (output ++ List.replicate 4 0 ++ block).length =
          output.length + 4 + block.length := by
        rw [List.length_append, List.length_append, List.length_replicate]
      rw [← List.append_assoc, List.take_left' hlength, List.append_assoc]
    have hsized := @overwrite_append output (List.replicate 4 0) (bigEndian 4 source.length) block
      (by simp)
    rw [List.length_append, List.length_replicate, List.append_assoc] at hwritten
    rw [if_neg hlength, if_neg hnone, hroom, hwritten, hcut, hsized]

end LZ4Compressor

namespace LZ4Block

variable {lz4 : LZ4Block} {source : Bytes}

/-- A source that is not too large is compressed. -/
theorem Documented.compressed_eq (h : lz4.Documented) (hle : source.length ≤ maxInputSize) :
    ∃ block, lz4.compressDefault source (lz4.compressBound source.length) = block ∧
      block.length ≤ lz4.compressBound source.length ∧
      lz4.decompressSafe block source.length = some source ∧
      LZ4Compressor.compressed lz4 source = (bigEndian 4 source.length ++ block, none) := by
  have hne := h.succeeds source _ hle le_rfl
  refine ⟨_, rfl, ?_, h.inverse source _ hne, if_neg hne⟩
  exact Int.ofNat_le.mp (h.length_le source _ (Int.natCast_nonneg _))

/-- A larger one is not. -/
theorem Documented.compressed_large (h : lz4.Documented) (hlt : maxInputSize < source.length) :
    (LZ4Compressor.compressed lz4 source).2 = some LZ4Compressor.compressFailed := by
  rw [LZ4Compressor.compressed, if_pos (h.fails source _ hlt)]

/-- What is appended has less than 2^31 bytes, and decompresses to the source. -/
theorem Documented.decompress_compressed (h : lz4.Documented)
    (hle : source.length ≤ maxInputSize) : ∃ payload,
      LZ4Compressor.compressed lz4 source = (payload, none) ∧ payload.length < 2 ^ 31 ∧
      lz4.decompress payload = some source ∧ (source.length ≤ maximumMessageBodySize →
        LZ4Compressor.decompress lz4.toLZ4 payload = .ok source) := by
  obtain ⟨block, hblock, hlength, hinverse, hcompressed⟩ := h.compressed_eq hle
  have hmax : source.length ≤ 0x7E000000 := hle
  refine ⟨_, hcompressed, ?_, ?_, fun hsize => ?_⟩
  · rw [h.compressBound, if_pos hle] at hlength
    rw [List.length_append, Math.length_bigEndian]
    omega
  · have hfits : source.length < 256 ^ 4 := by omega
    rw [decompress, List.take_left' (Math.length_bigEndian _ _),
      List.drop_left' (Math.length_bigEndian _ _), Math.ofBigEndian_bigEndian hfits]
    exact hinverse
  · have hinverts : lz4.toLZ4.decompressSafe (lz4.toLZ4.compress source) source.length =
        some source := by
      show lz4.decompressSafe (lz4.compressDefault source _) source.length = some source
      rw [hblock]
      exact hinverse
    rw [← hblock]
    exact LZ4Compressor.decompress_compress hinverts hsize

/-! ## Blocks of literals -/

/-- The token of a block of literals, with the bytes of a length that does not fit into it. -/
def lengthBytes (n : Nat) : Bytes :=
  if n < 15 then [UInt8.ofNat (n * 16)]
  else 0xF0 :: (List.replicate ((n - 15) / 255) 255 ++ [UInt8.ofNat ((n - 15) % 255)])

/-- Add up a length as long as the bytes are full. -/
def readMore (length : Nat) : Bytes → Option (Nat × Bytes)
  | [] => none
  | byte :: rest =>
    if byte.toNat = 255 then readMore (length + 255) rest else some (length + byte.toNat, rest)

/-- The number of literals at the start of a block. -/
def readLength : Bytes → Option (Nat × Bytes)
  | [] => none
  | token :: rest =>
    if token.toNat / 16 < 15 then some (token.toNat / 16, rest) else readMore 15 rest

/-- LZ4 for sources in which it finds no matches, such as all that are shorter than 13 bytes: one
sequence of literals. -/
def literals : LZ4Block where
  compressBound := fun n => if n ≤ maxInputSize then n.toNat + n.toNat / 255 + 16 else 0
  compressDefault := fun source capacity =>
    let block := lengthBytes source.length ++ source
    if source.length ≤ maxInputSize ∧ (block.length : Int) ≤ capacity then block else []
  decompressSafe := fun block capacity =>
    match readLength block with
    | some (length, rest) => if rest.length = length ∧ length ≤ capacity then some rest else none
    | none => none

theorem length_lengthBytes_le (n : Nat) : (lengthBytes n).length ≤ n / 255 + 16 := by
  rw [lengthBytes]
  split
  · simp
  · simp
    omega

theorem lengthBytes_ne_nil (n : Nat) : lengthBytes n ≠ [] := by
  rw [lengthBytes]
  split
  · exact List.cons_ne_nil _ _
  · exact List.cons_ne_nil _ _

theorem readMore_replicate (length k : Nat) {r : Nat} (hr : r < 255) (rest : Bytes) :
    readMore length (List.replicate k 255 ++ UInt8.ofNat r :: rest) =
      some (length + k * 255 + r, rest) := by
  induction k generalizing length with
  | zero =>
    have hbyte : (UInt8.ofNat r).toNat = r := by
      rw [UInt8.toNat_ofNat']
      omega
    rw [List.replicate_zero, List.nil_append, readMore, hbyte, if_neg (by omega)]
    simp
  | succ k ih =>
    rw [List.replicate_succ, List.cons_append, readMore, if_pos (by decide), ih]
    congr 2
    omega

theorem readLength_lengthBytes (n : Nat) (rest : Bytes) :
    readLength (lengthBytes n ++ rest) = some (n, rest) := by
  rw [lengthBytes]
  split
  next hlt =>
    have hbyte : (UInt8.ofNat (n * 16)).toNat = n * 16 := by
      rw [UInt8.toNat_ofNat']
      omega
    rw [List.singleton_append, readLength, hbyte, Nat.mul_div_cancel n (by decide), if_pos hlt]
  next hge =>
    have hmore := readMore_replicate 15 ((n - 15) / 255) (Nat.mod_lt (n - 15) (by decide)) rest
    rw [List.cons_append, List.append_assoc, List.singleton_append, readLength, if_neg (by decide),
      hmore]
    congr 2
    omega

theorem documented_literals : literals.Documented where
  compressBound := by
    intro n
    simp [literals]
  succeeds := by
    intro source capacity hle hcapacity
    have hlength := length_lengthBytes_le source.length
    have hroom : ((lengthBytes source.length ++ source).length : Int) ≤ capacity := by
      simp [literals, hle] at hcapacity
      rw [List.length_append]
      omega
    simp only [literals]
    rw [if_pos ⟨hle, hroom⟩]
    exact List.append_ne_nil_of_left_ne_nil (lengthBytes_ne_nil _) _
  length_le := by
    intro source capacity hcapacity
    simp only [literals]
    split
    next h => exact h.2
    · exact hcapacity
  fails := by
    intro source capacity hlt
    exact if_neg fun h => absurd h.1 (by omega)
  inverse := by
    intro source capacity hne
    simp only [literals] at hne ⊢
    split at hne
    next h =>
      rw [if_pos h, readLength_lengthBytes]
      simp
    · exact absurd rfl hne

end LZ4Block

end CqlDriver

/-
The checksum of a tile: which one it is, and the damage it cannot miss.

# The checksum

`ieeeCrc` is the CRC of IEEE 802.3 as a polynomial: the message behind 32
zeros, its first 32 bits complemented, modulo the generator 0x04C11DB7,
complemented. `crc32` computes it, lowest bit first (`polynomial_crc32`).

# Damage

A payload whose bits were changed within 32 of them has another checksum,
while the header still names the first one.
-/
import AowisMap.Lib.Crc
import AowisMap.Terrain.Proofs.TileRoundTrip

namespace AowisMap.Terrain

open Lib Lib.LittleEndian Lib.Crc Polynomial

-- ============================================================= messages

/-- The bits of a byte, the lowest first. -/
def byteBits (b : UInt8) : List Bool := bitsOf b.toBitVec

/-- The bits of some bytes in the order in which they are shifted in. -/
def messageBits (data : Bytes) : List Bool := data.flatMap byteBits

/-- 32 ones. -/
noncomputable def onesPolynomial : (ZMod 2)[X] :=
  polynomial (List.replicate 32 true)

/-- The generator 0x04C11DB7, whose highest bit is the coefficient of
`X ^ 31`. -/
noncomputable def ieeeGenerator : (ZMod 2)[X] :=
  X ^ 32 + polynomial (bitsOf 0x04C11DB7#32).reverse

/-- The CRC of IEEE 802.3 with its initial and its final complement. -/
noncomputable def ieeeCrc (data : Bytes) : (ZMod 2)[X] :=
  (X ^ 32 * polynomial (messageBits data)
    + X ^ (8 * data.length) * onesPolynomial) %ₘ ieeeGenerator
  + onesPolynomial

-- ============================================================= checksum

/-- The byte that is added to the register. -/
def loadByte (b : UInt8) : BitVec 32 := BitVec.ofNat 32 b.toNat

theorem loads_byte : Loads (w := 32) byteBits loadByte 8 where
  le := by decide
  length b := length_bitsOf b.toBitVec
  bits b := by
    have hwidth : loadByte b = b.toBitVec.setWidth 32 :=
      BitVec.ofNat_toNat 32 b.toBitVec
    rw [hwidth]
    exact bitsOf_setWidth (by decide) b.toBitVec

/-- The mask of the source is a choice. -/
theorem crcBit_eq (crc : BitVec 32) :
    crcBit crc = step 0xEDB88320#32 crc := by
  unfold crcBit step
  rw [BitVec.and_one_eq_setWidth_ofBool_getLsbD]
  cases crc.getLsbD 0 with
  | false => rfl
  | true => rfl

theorem crcByte_eq (crc : BitVec 32) (b : UInt8) :
    crcByte crc b = (step 0xEDB88320#32)^[8] (crc ^^^ loadByte b) := by
  unfold crcByte
  simp only [crcBit_eq]
  rfl

/-- The register of the checksum. -/
def crcRegister (data : Bytes) : BitVec 32 :=
  run 0xEDB88320#32 loadByte 8 (BitVec.allOnes 32) data

theorem crc32_eq (data : Bytes) :
    crc32 data = (~~~(crcRegister data)).toNat := by
  have hbyte : crcByte = fun crc b =>
      (step 0xEDB88320#32)^[8] (crc ^^^ loadByte b) :=
    funext fun crc => funext fun b => crcByte_eq crc b
  unfold crc32
  rw [hbyte]
  rfl

/-- The register is reflected: its feedback is the generator read from the
other end. -/
theorem generator_eq : generator 0xEDB88320#32 = ieeeGenerator := by
  have hreverse : (bitsOf 0x04C11DB7#32).reverse = bitsOf 0xEDB88320#32 := by
    decide
  unfold generator ieeeGenerator
  rw [hreverse]

/-- The checksum is the one of IEEE 802.3, the lowest bit of the number
being the highest coefficient. -/
theorem polynomial_crc32 (data : Bytes) :
    polynomial (bitsOf (BitVec.ofNat 32 (crc32 data))) = ieeeCrc data := by
  rw [crc32_eq, BitVec.ofNat_toNat, BitVec.setWidth_eq, polynomial_not]
  unfold crcRegister ieeeCrc
  rw [polynomial_run loads_byte, bitsOf_allOnes, generator_eq]
  rfl

/-- Bursts of at most 32 bits change the checksum. -/
theorem crc32_ne_of_burst {data data' : Bytes}
    (hlength : data.length = data'.length)
    (h : Burst 32 (messageBits data) (messageBits data')) :
    crc32 data ≠ crc32 data' := by
  intro heq
  have hconstant : (generator 0xEDB88320#32).coeff 0 ≠ 0 := by
    rw [coeff_zero_generator]
    decide
  rw [crc32_eq, crc32_eq] at heq
  have hregister := BitVec.not_inj.1 (BitVec.eq_of_toNat_eq heq)
  exact run_ne_of_burst loads_byte hconstant _ hlength h hregister

-- ============================================================== payloads

variable {f : TileFields}

/-- What stands before the end of a string is read from there. -/
theorem readAt_left {width offset : Nat} {before after : Bytes}
    (h : offset + width ≤ before.length) :
    readAt width (before ++ after) offset = readAt width before offset := by
  unfold readAt
  rw [List.drop_append_of_le_length (by omega),
    List.take_append_of_le_length (by rw [List.length_drop]; omega)]

/-- A layout ends with its payload. -/
theorem layout_front (f : TileFields) : ∃ front,
    f.layout = front ++ f.payload ∧ 64 ≤ front.length := by
  have hmagic : terrainTileMagic.length = 8 := rfl
  have hzeros : ([0, 0, 0] : Bytes).length = 3 := rfl
  have hlength : 64 ≤ f.layout.length := by
    unfold TileFields.layout
    simp only [List.length_append, length_toBytes]
    omega
  refine ⟨f.layout.take 64 ++ f.datasetUtf8, ?_, ?_⟩
  · rw [List.append_assoc, ← drop_layout, List.take_append_drop]
  · rw [List.length_append, List.length_take]
    omega

/-- The checksum that a layout names. -/
theorem expectedCrc32_layout (f : TileFields) :
    readAt 4 f.layout 60 = crc32 f.payload := by
  have hcrc := crc32_lt f.payload
  have hmagic : terrainTileMagic.length = 8 := rfl
  have hzeros : ([0, 0, 0] : Bytes).length = 3 := rfl
  unfold TileFields.layout
  simp (disch := decide) only [readAt_skip, Nat.reduceSub,
    readAt_skipBytes, hmagic, hzeros]
  exact readAt_here hcrc

theorem length_payload (h : f.codes.length = 4225) :
    f.payload.length = payloadBytes := by
  rw [TileFields.payload, length_flatten, h]
  rfl

/-- A layout by its last 8450 bytes: they are the payload, and the bytes
before them name its checksum. -/
theorem layout_split {header payload : Bytes}
    (hcount : f.codes.length = 4225) (h : f.layout = header ++ payload)
    (hpayload : payload.length = payloadBytes) :
    readAt 4 header 60 = crc32 payload := by
  obtain ⟨front, hfront, hlength⟩ := layout_front f
  have hcrc := expectedCrc32_layout f
  have hsame : f.payload.length = payload.length := by
    rw [length_payload hcount, hpayload]
  obtain ⟨hheader, hrest⟩ := List.append_inj' (hfront.symm.trans h) hsame
  rw [hfront, readAt_left (by omega), hheader, hrest] at hcrc
  exact hcrc

/-- **Short damage is detected.** The checksum is the CRC of IEEE 802.3,
and what an encoded tile becomes when its payload is changed within 32
consecutive bits is not decoded. -/
theorem burst_rejected :
    (∀ data : Bytes,
      polynomial (bitsOf (BitVec.ofNat 32 (crc32 data))) = ieeeCrc data) ∧
    ∀ (fmt : FloatFormat) (tile : TerrainTile)
      (header payload payload' : Bytes),
      encodeTerrainTile fmt tile = .ok (header ++ payload) →
      payload.length = payloadBytes →
      Burst 32 (messageBits payload) (messageBits payload') →
      ∃ message,
        decodeTerrainTile fmt (header ++ payload') = .error message := by
  refine ⟨polynomial_crc32, ?_⟩
  intro fmt tile header payload payload' hencode hlength hburst
  cases hdecode : decodeTerrainTile fmt (header ++ payload') with
  | error message => exact ⟨message, rfl⟩
  | ok tile' =>
      exfalso
      obtain ⟨hvalid, scale, -, -, hlayout⟩ := encode_inv hencode
      obtain ⟨hadmissible, hlayout', -⟩ := layout_of_decode hdecode
      have hsame : payload.length = payload'.length := by
        have hbits := hburst.length
        unfold messageBits at hbits
        rw [length_chunks loads_byte, length_chunks loads_byte] at hbits
        omega
      have hcount : (encodedFields fmt tile scale).codes.length = 4225 :=
        (List.length_map _).trans (validTile_inv hvalid).count
      have hcrc := layout_split hcount hlayout.symm hlength
      have hcrc' := layout_split hadmissible.count hlayout'.symm
        (hsame ▸ hlength)
      exact crc32_ne_of_burst hsame hburst (hcrc.symm.trans hcrc')

/-- One byte that is another one is a burst. -/
theorem burst_byte (before rest : Bytes) {b b' : UInt8} (h : b ≠ b') :
    Burst 32 (messageBits (before ++ b :: rest))
      (messageBits (before ++ b' :: rest)) := by
  have hbits (b : UInt8) : messageBits (before ++ b :: rest)
      = messageBits before ++ (byteBits b ++ messageBits rest) := by
    unfold messageBits
    rw [List.flatMap_append, List.flatMap_cons]
  have hlength (b : UInt8) : (byteBits b).length = 8 := loads_byte.length b
  rw [hbits, hbits]
  refine ⟨?_, ?_, (messageBits before).length, ?_⟩
  · simp only [List.length_append, hlength]
  · intro heq
    have hbyte := List.append_cancel_right (List.append_cancel_left heq)
    have hregister := eq_of_polynomial_eq (congrArg polynomial hbyte)
    exact h (UInt8.toBitVec_inj.1 hregister)
  · intro i hi
    by_cases hbefore : i < (messageBits before).length
    · rw [List.getElem?_append_left hbefore,
        List.getElem?_append_left hbefore]
    · have hbehind (b : UInt8) :
          (byteBits b).length ≤ i - (messageBits before).length := by
        rw [hlength]
        omega
      rw [List.getElem?_append_right (Nat.not_lt.1 hbefore),
        List.getElem?_append_right (Nat.not_lt.1 hbefore),
        List.getElem?_append_right (hbehind b),
        List.getElem?_append_right (hbehind b'), hlength, hlength]

/-- An encoded tile ends with a payload. -/
theorem encode_payload {fmt : FloatFormat} {tile : TerrainTile}
    {data : Bytes} (h : encodeTerrainTile fmt tile = .ok data) :
    ∃ header payload, data = header ++ payload ∧
      payload.length = payloadBytes := by
  obtain ⟨hvalid, scale, -, -, rfl⟩ := encode_inv h
  obtain ⟨header, hlayout, -⟩ := layout_front (encodedFields fmt tile scale)
  refine ⟨header, _, hlayout, length_payload ?_⟩
  exact (List.length_map _).trans (validTile_inv hvalid).count

/-- The first byte of the payload of an encoded tile, changed. -/
theorem burst_rejected_range : ∃ header b rest message,
    encodeTerrainTile (exactFormat FloatValue.toBits FloatValue.ofBits
      FloatValue.toBits_lt) rangeTile = .ok (header ++ b :: rest) ∧
    decodeTerrainTile (exactFormat FloatValue.toBits FloatValue.ofBits
      FloatValue.toBits_lt) (header ++ (b + 1) :: rest) = .error message := by
  obtain ⟨data, hencode, -⟩ := rangeTile_exact
  obtain ⟨header, payload, rfl, hlength⟩ := encode_payload hencode
  cases payload with
  | nil => cases hlength
  | cons b rest =>
      have hne : b ≠ b + 1 := by
        intro heq
        have hnat := congrArg UInt8.toNat heq
        rw [UInt8.toNat_add] at hnat
        have hone : (1 : UInt8).toNat = 1 := rfl
        have hlt := b.toNat_lt
        omega
      obtain ⟨message, hmessage⟩ := burst_rejected.2 _ rangeTile header
        (b :: rest) ((b + 1) :: rest) hencode hlength
        (burst_byte [] rest hne)
      exact ⟨header, b, rest, message, hencode, hmessage⟩

end AowisMap.Terrain

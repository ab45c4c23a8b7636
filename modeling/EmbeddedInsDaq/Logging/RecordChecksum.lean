import EmbeddedInsDaq.Lib.Crc
import EmbeddedInsDaq.Logging.RecordBuilder

/-!
# The table-driven checksum

`crc32_update` takes a nibble at a time from a table of sixteen words. Its register moves as that
of the bit-at-a-time CRC-32 does (`toBitVec_crc32Update`), so what holds of the latter holds of it:
a change of one byte changes the checksum (`crc32Bytes_set_ne`).
-/

namespace EmbeddedInsDaq

open Crc

/-- The table holds what four steps make of a nibble. -/
theorem toBitVec_kCrc32NibbleTable (i : Fin 16) :
    (kCrc32NibbleTable.get i).toBitVec = bitSteps crc32Poly 4 (BitVec.ofNat 32 i.val) := by
  revert i
  decide

theorem low_four (value : UInt32) :
    low 4 value.toBitVec = BitVec.ofNat 32 (nibble value).val := by
  apply BitVec.eq_of_toNat_eq
  show ((value.toBitVec.setWidth 4).setWidth 32).toNat = _
  have hnibble : (nibble value).val = value.toNat % 16 := by
    show (value &&& 0x0f).toNat = _
    rw [UInt32.toNat_and]
    exact Nat.and_two_pow_sub_one_eq_mod value.toNat 4
  rw [BitVec.toNat_setWidth, BitVec.toNat_setWidth, BitVec.toNat_ofNat, hnibble]
  rfl

theorem toBitVec_crc32Nibble (value : UInt32) :
    (crc32Nibble value).toBitVec = bitSteps crc32Poly 4 value.toBitVec := by
  rw [bitSteps_eq_low_xor, low_four, ← toBitVec_kCrc32NibbleTable]
  unfold crc32Nibble
  rw [UInt32.toBitVec_xor]
  rfl

theorem toBitVec_crc32Byte (value : UInt32) (byte : UInt8) :
    (crc32Byte value byte).toBitVec = byteStep crc32Poly value.toBitVec byte := by
  unfold crc32Byte byteStep
  rw [toBitVec_crc32Nibble, toBitVec_crc32Nibble, ← bitSteps_add, UInt32.toBitVec_xor]
  rfl

/-- **Table.** The table-driven register is the bit-at-a-time register. -/
theorem toBitVec_crc32Update (crc : UInt32) (data : List UInt8) :
    (crc32Update crc data).toBitVec = update crc32Poly crc.toBitVec data := by
  induction data generalizing crc with
  | nil => rfl
  | cons byte data ih =>
    show (crc32Update (crc32Byte crc byte) data).toBitVec =
      update crc32Poly (byteStep crc32Poly crc.toBitVec byte) data
    rw [ih, toBitVec_crc32Byte]

theorem toBitVec_crc32Bytes (data : List UInt8) :
    (crc32Bytes data).toBitVec = checksum crc32Poly data := by
  unfold crc32Bytes checksum
  rw [UInt32.toBitVec_not, toBitVec_crc32Update]
  rfl

theorem crc32Bytes_set_ne {data : List UInt8} {i : ℕ} (hi : i < data.length) {b : UInt8}
    (hb : data[i]? ≠ some b) : crc32Bytes (data.set i b) ≠ crc32Bytes data := by
  intro heq
  have hchecksum := congrArg UInt32.toBitVec heq
  rw [toBitVec_crc32Bytes, toBitVec_crc32Bytes] at hchecksum
  rw [List.getElem?_eq_getElem hi] at hb
  exact checksum_set_ne crc32Poly_top (by decide) hi (fun h => hb (congrArg some h.symm)) hchecksum

end EmbeddedInsDaq

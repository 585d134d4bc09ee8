import NetlinkHub.Posix.Path
import Mathlib.Tactic.Ring

/-! # Integers of a fixed width

Little-endian: the lowest octet stands first. -/

namespace Binary

open Posix (Bytes)

/-- `LittleEndian.PutUint16` and `PutUint32`: the lowest `width` octets of a value. -/
def putUint : Nat → Nat → Bytes
  | 0, _ => []
  | width + 1, value => UInt8.ofNat value :: putUint width (value / 256)

/-- `LittleEndian.Uint16` and `Uint32`, and `getUint32` of a `DataView`: the value of all the octets. -/
def uint : Bytes → Nat
  | [] => 0
  | b :: bytes => b.toNat + 256 * uint bytes

@[simp] theorem length_putUint (width value : Nat) : (putUint width value).length = width := by
  induction width generalizing value with
  | zero => rfl
  | succ width ih => rw [putUint, List.length_cons, ih]

/-- **What is read** is what was written, as far as it fits. -/
theorem uint_putUint (width value : Nat) : uint (putUint width value) = value % 256 ^ width := by
  induction width generalizing value with
  | zero => exact (Nat.mod_one value).symm
  | succ width ih =>
    have hlow : (UInt8.ofNat value).toNat = value % 256 := by simp
    rw [putUint, uint, ih, hlow, Nat.pow_succ', Nat.mod_mul]

/-- What was read is written as it was. -/
theorem putUint_uint (bytes : Bytes) : putUint bytes.length (uint bytes) = bytes := by
  induction bytes with
  | nil => rfl
  | cons b bytes ih =>
    have hb := b.toNat_lt
    have hlow : UInt8.ofNat (b.toNat + 256 * uint bytes) = b := by
      refine UInt8.toNat_inj.mp ?_
      rw [UInt8.toNat_ofNat']
      omega
    have hrest : (b.toNat + 256 * uint bytes) / 256 = uint bytes := by omega
    rw [List.length_cons, uint, putUint, hlow, hrest, ih]

end Binary

import GoogleCloudRust.Library.Bytes

/-! # CRC32C

The Castagnoli polynomial, reflected, with inverted initial and final values. -/

namespace GoogleCloudRust.Crc32c

def shift (crc : UInt32) : UInt32 :=
  if crc &&& 1 = 1 then (crc >>> 1) ^^^ 0x82F63B78 else crc >>> 1

def addByte (crc : UInt32) (byte : UInt8) : UInt32 := shift^[8] (crc ^^^ byte.toUInt32)

/-- The checksum of more data after data with a given checksum. -/
def append (crc : UInt32) (data : Bytes) : UInt32 := ~~~(data.foldl addByte (~~~crc))

theorem append_nil (crc : UInt32) : append crc [] = crc := by
  simp [append]

theorem append_append (crc : UInt32) (a b : Bytes) :
    append (append crc a) b = append crc (a ++ b) := by
  simp [append]

example : append 0 "123456789".toUTF8.toList = 0xE3069283 := by decide +kernel

/-! ## Linearity -/

theorem shift_eq (crc : UInt32) :
    shift crc = (crc >>> 1) ^^^ (if crc &&& 1 = 1 then 0x82F63B78 else 0) := by
  unfold shift
  split
  · rfl
  · simp

theorem and_one (crc : UInt32) : crc &&& 1 = 0 ∨ crc &&& 1 = 1 := by
  have h : (crc &&& 1).toNat = crc.toNat % 2 := by
    rw [UInt32.toNat_and]
    exact Nat.and_one_is_mod _
  rcases Nat.mod_two_eq_zero_or_one crc.toNat with heven | hodd
  · exact .inl (UInt32.toNat_inj.mp (h.trans heven))
  · exact .inr (UInt32.toNat_inj.mp (h.trans hodd))

theorem xor_and_one (x y : UInt32) : (x ^^^ y) &&& 1 = (x &&& 1) ^^^ (y &&& 1) := by
  apply UInt32.toBitVec_inj.mp
  ext i
  simp [Bool.and_xor_distrib_right]

/-- Division is linear, bit by bit. -/
theorem shift_xor (x y : UInt32) : shift (x ^^^ y) = shift x ^^^ shift y := by
  rw [shift_eq, shift_eq x, shift_eq y, UInt32.shiftRight_xor, xor_and_one]
  rcases and_one x with hx | hx
  · rcases and_one y with hy | hy
    · simp [hx, hy]
    · simp [hx, hy, UInt32.xor_assoc]
  · rcases and_one y with hy | hy
    · simp only [hx, hy, UInt32.xor_zero, if_true]
      rw [if_neg (by decide), UInt32.xor_zero, UInt32.xor_assoc, UInt32.xor_assoc,
        UInt32.xor_comm (y >>> 1)]
    · simp only [hx, hy, if_true]
      rw [if_neg (by decide), UInt32.xor_zero, UInt32.xor_assoc, UInt32.xor_comm 2197175160,
        UInt32.xor_assoc, UInt32.xor_self, UInt32.xor_zero]

theorem shift_iterate_xor (n : ℕ) (x y : UInt32) :
    shift^[n] (x ^^^ y) = shift^[n] x ^^^ shift^[n] y := by
  induction n generalizing x y with
  | zero => rfl
  | succ n ih => rw [Function.iterate_succ_apply, shift_xor, ih]; rfl

theorem foldl_addByte_xor (x y : UInt32) (data : Bytes) :
    data.foldl addByte (x ^^^ y) = shift^[8 * data.length] x ^^^ data.foldl addByte y := by
  induction data generalizing x y with
  | nil => rfl
  | cons byte data ih =>
      have hbyte : addByte (x ^^^ y) byte = shift^[8] x ^^^ addByte y byte := by
        rw [addByte, addByte, ← shift_iterate_xor, UInt32.xor_assoc]
      rw [List.foldl_cons, hbyte, ih, ← Function.iterate_add_apply, List.length_cons, Nat.mul_succ,
        List.foldl_cons]

/-- The checksum of two strings of bytes from theirs, by the length of the second. -/
def combine (crc1 crc2 : UInt32) (length2 : ℕ) : UInt32 := shift^[8 * length2] crc1 ^^^ crc2

theorem append_eq_combine (crc : UInt32) (data : Bytes) :
    append crc data = combine crc (append 0 data) data.length := by
  have hnot : ∀ x y : UInt32, ~~~(x ^^^ y) = x ^^^ ~~~y := by
    intro x y
    apply UInt32.toBitVec_inj.mp
    ext i
    simp
  have hzero : ~~~crc = crc ^^^ ~~~(0 : UInt32) := by
    rw [← hnot, UInt32.xor_zero]
  rw [combine, append, append, ← hnot, hzero, foldl_addByte_xor]

theorem combine_append (a b : Bytes) :
    combine (append 0 a) (append 0 b) b.length = append 0 (a ++ b) := by
  rw [← append_eq_combine, append_append]
end GoogleCloudRust.Crc32c

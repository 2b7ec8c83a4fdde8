import GoogleCloudRust.Model.SsFormat
import Mathlib.Tactic.IntervalCases
import Mathlib.Tactic.Positivity
import Mathlib.Tactic.Zify

/-! # Order of the column codes

For every column type the appended bytes are an ordered code of the semantic value, in the direction
asked for. The header byte of an encoded integer names its sign and its length, growing with the
length for nonnegative values and shrinking for negative ones. The bytes after it are a numeral of
twice the value, taken modulo the length. -/

namespace GoogleCloudRust.SsFormat

/-! ## Lengths of encoded integers -/

/-- The number of whole bytes needed for the significant bits of a word. -/
private theorem divCeil_clz_spec (x : BitVec 64) :
    x.toNat < 256 ^ divCeil (64 - x.clz.toNat) 8 ∧
      (0 < divCeil (64 - x.clz.toNat) 8 → 256 ^ (divCeil (64 - x.clz.toNat) 8 - 1) ≤ x.toNat) := by
  have hpow : ∀ k, 256 ^ k = 2 ^ (8 * k) := by
    intro k
    rw [pow_mul]
    norm_num
  simp only [hpow, divCeil]
  refine ⟨?_, ?_⟩
  · refine BitVec.toNat_lt_two_pow_sub_clz.trans_le (Nat.pow_le_pow_right (by decide) ?_)
    omega
  · intro hpos
    have hx : x ≠ 0#64 := by
      rintro rfl
      simp at hpos
    refine le_trans (Nat.pow_le_pow_right (by decide) ?_)
      (BitVec.two_pow_sub_clz_le_toNat_of_ne_zero (by decide) hx)
    omega

/-- How far a value lies from zero, counting both signs from `0`. -/
def distance (v : ℤ) : ℕ := if 0 ≤ v then v.toNat else (-v - 1).toNat

private theorem toInt_nonneg_iff (t : Int64) : 0 ≤ t ↔ 0 ≤ t.toInt := by
  rw [Int64.le_iff_toInt_le]
  rfl

private theorem toNat_toBitVec_of_nonneg (t : Int64) (h : 0 ≤ t.toInt) :
    t.toBitVec.toNat = t.toInt.toNat := by
  have htoInt : t.toBitVec.toInt = t.toInt := rfl
  rw [BitVec.toInt_eq_toNat_cond] at htoInt
  have hlt := t.toBitVec.isLt
  split at htoInt <;> omega

theorem toInt_not_bounded (t : Int64) : (~~~t).toInt = -t.toInt - 1 := by
  have hlo := t.le_toInt
  have hhi := t.toInt_lt
  rw [Int64.toInt_not, Int.bmod_eq_of_le] <;> omega

/-- The length grows with the distance of the shifted value from zero. -/
theorem int64Length_spec (t : Int64) :
    distance t.toInt < 256 ^ (int64Length t - 1) ∧
      (0 < int64Length t - 1 → 256 ^ (int64Length t - 1 - 1) ≤ distance t.toInt) := by
  by_cases h : 0 ≤ t.toInt
  · have ht := (toInt_nonneg_iff t).mpr h
    have hspec := divCeil_clz_spec t.toBitVec
    rw [toNat_toBitVec_of_nonneg t h] at hspec
    simpa [int64Length, ht, distance, h, leadingZeros] using hspec
  · have ht := mt (toInt_nonneg_iff t).mp h
    have hnot : 0 ≤ (~~~t).toInt := by
      rw [toInt_not_bounded]
      omega
    have hspec := divCeil_clz_spec (~~~t).toBitVec
    rw [toNat_toBitVec_of_nonneg _ hnot, toInt_not_bounded] at hspec
    simpa [int64Length, ht, distance, h, leadingOnes, leadingZeros] using hspec

theorem toInt_shiftRight_seven (v : Int64) : (v >>> 7).toInt = v.toInt / 128 := by
  have hshift : (v >>> 7).toBitVec = v.toBitVec.sshiftRight 7 := by
    rw [Int64.toBitVec_shiftRight]
    rfl
  rw [← Int64.toInt_toBitVec, hshift, BitVec.toInt_sshiftRight, Int64.toInt_toBitVec,
    Int.shiftRight_eq_div_pow]
  rfl

/-- Bytes after the header beyond the last one. -/
def extraBytes (v : Int64) : ℕ := int64Length (v >>> 7) - 1

theorem int64Length_eq (v : Int64) : int64Length (v >>> 7) = extraBytes v + 1 := by
  simp only [extraBytes, int64Length]
  omega

theorem distance_lt (v : Int64) : distance v.toInt < 128 * 256 ^ extraBytes v := by
  have h := (int64Length_spec (v >>> 7)).1
  rw [toInt_shiftRight_seven] at h
  simp only [distance] at h ⊢
  split at h <;> split <;> simp only [extraBytes] <;> omega

theorem le_distance (v : Int64) (hpos : 0 < extraBytes v) :
    128 * 256 ^ (extraBytes v - 1) ≤ distance v.toInt := by
  have h := (int64Length_spec (v >>> 7)).2 hpos
  rw [toInt_shiftRight_seven] at h
  simp only [distance, extraBytes] at h ⊢
  split at h <;> split <;> omega

theorem extraBytes_le (v : Int64) : extraBytes v ≤ 7 := by
  by_contra hlt
  have hge := le_distance v (by omega)
  have hpow : 256 ^ 7 ≤ 256 ^ (extraBytes v - 1) := Nat.pow_le_pow_right (by decide) (by omega)
  have hlo := v.le_toInt
  have hhi := v.toInt_lt
  simp only [distance] at hge
  split at hge <;> omega

/-- A value closer to zero does not need more bytes. -/
theorem extraBytes_mono {v w : Int64} (h : distance v.toInt ≤ distance w.toInt) :
    extraBytes v ≤ extraBytes w := by
  by_contra hlt
  have hv := le_distance v (by omega)
  have hw := distance_lt w
  have hpow : 256 ^ extraBytes w ≤ 256 ^ (extraBytes v - 1) :=
    Nat.pow_le_pow_right (by decide) (by omega)
  omega

/-! ## The bytes that are written -/

/-- Twice the value in `extraBytes v + 1` base-256 digits. -/
def int64Payload (v : Int64) : ℕ := ((2 * v.toInt) % 256 ^ (extraBytes v + 1)).toNat

theorem toNat_toUInt64 (t : Int64) : (t.toUInt64.toNat : ℤ) = t.toInt % 2 ^ 64 := by
  have htoInt : t.toBitVec.toInt = t.toInt := rfl
  have hnat : t.toUInt64.toNat = t.toBitVec.toNat := rfl
  rw [BitVec.toInt_eq_toNat_cond] at htoInt
  have hlt := t.toBitVec.isLt
  split at htoInt <;> omega

private theorem low_byte (v : Int64) :
    ((v &&& 0x7F) <<< 1).toUInt64.toUInt8.toNat = (2 * (v.toInt % 128)).toNat := by
  have hnat : ((v &&& 0x7F) <<< 1).toUInt64.toUInt8.toNat =
      ((v.toUInt64.toNat &&& 127) <<< 1) % 2 ^ 64 % 256 := rfl
  have hand : v.toUInt64.toNat &&& 127 = v.toUInt64.toNat % 128 :=
    Nat.and_two_pow_sub_one_eq_mod _ 7
  have hval := toNat_toUInt64 v
  rw [hnat, hand, Nat.shiftLeft_eq]
  omega

/-- Copying the shifted value in front of the low byte yields the numeral of
`int64Payload`. -/
private theorem payload_bytes (v : Int64) :
    beBytes (extraBytes v) (v >>> 7).toUInt64.toNat ++ [((v &&& 0x7F) <<< 1).toUInt64.toUInt8] =
      beBytes (extraBytes v + 1) (int64Payload v) := by
  have hn := extraBytes_le v
  have hshift := toNat_toUInt64 (v >>> 7)
  rw [toInt_shiftRight_seven] at hshift
  have hlow := low_byte v
  obtain ⟨c, hc⟩ : (256 : ℤ) ^ (extraBytes v + 1) ∣ 256 * 2 ^ 64 :=
    pow_dvd_pow (256 : ℤ) (by omega : extraBytes v + 1 ≤ 9)
  -- The shifted value was cut to 64 bits; that loses a multiple of the modulus.
  have hvalue : 256 * (v.toInt / 128 % 2 ^ 64) + 2 * (v.toInt % 128) =
      2 * v.toInt - 256 ^ (extraBytes v + 1) * (c * (v.toInt / 128 / 2 ^ 64)) := by
    rw [← mul_assoc, ← hc]
    omega
  rw [beBytes_snoc, ← beBytes_mod (extraBytes v + 1)]
  congr 1
  zify [int64Payload]
  rw [Int.toNat_of_nonneg (Int.emod_nonneg _ (by positivity)), hshift, hlow,
    Int.toNat_of_nonneg (by omega), hvalue, Int.sub_mul_emod_self_left]

private theorem drop_copyFromSlice (n : ℕ) (hn : n ≤ 7) (src : Bytes) (low : UInt8)
    (hsrc : src.length = n) :
    (if 1 < n + 1 then
        copyFromSlice ((List.replicate 8 0).set 7 low) (8 - (n + 1)) 7 src
      else (List.replicate 8 0).set 7 low).drop (8 - (n + 1)) = src ++ [low] := by
  by_cases h : 0 < n
  · have htake : (((List.replicate 8 (0 : UInt8)).set 7 low).take (8 - (n + 1))).length =
        8 - (n + 1) := by
      simp
      omega
    rw [if_pos (by omega), copyFromSlice, List.append_assoc, List.drop_append_of_le_length
      htake.ge, List.drop_of_length_le htake.le, List.nil_append]
    rfl
  · obtain rfl : n = 0 := by omega
    obtain rfl : src = [] := List.length_eq_zero_iff.mp hsrc
    rfl

/-- Header and payload for an already complemented value. -/
def int64Code (decreasing isDouble : Bool) (v : Int64) : Bytes :=
  (isKey ||| int64TypeCode (0 ≤ v) decreasing isDouble (extraBytes v + 1)) ::
    beBytes (extraBytes v + 1) (int64Payload v)

theorem appendInt64Internal_eq (out : Bytes) (value : Int64) (decreasing isDouble : Bool) :
    appendInt64Internal out value decreasing isDouble =
      out ++ int64Code decreasing isDouble (if decreasing then ~~~value else value) := by
  simp only [appendInt64Internal]
  generalize (if decreasing then ~~~value else value) = v
  have hn := extraBytes_le v
  have hsrc : (i64ToBeBytes (v >>> 7)).drop (9 - (extraBytes v + 1)) =
      beBytes (extraBytes v) (v >>> 7).toUInt64.toNat := by
    have h := drop_beBytes (8 - extraBytes v) (extraBytes v) (v >>> 7).toUInt64.toNat
    rw [Nat.sub_add_cancel (by omega)] at h
    rw [i64ToBeBytes, ← h]
    congr 1
    omega
  rw [int64Length_eq, hsrc, drop_copyFromSlice _ hn _ _ (by simp), payload_bytes, int64Code]
  simp

/-! ## Order of encoded integers -/

/-- The position of the header among the headers of one direction and kind. -/
def headerClass (v : Int64) : ℤ := if 0 ≤ v then extraBytes v + 1 else -(extraBytes v : ℤ)

def headerBase (decreasing isDouble : Bool) : ℤ :=
  match decreasing, isDouble with
  | false, false => 144
  | false, true => 201
  | true, false => 176
  | true, true => 217

private theorem header_toNat (v : Int64) (decreasing isDouble : Bool) :
    ((isKey ||| int64TypeCode (0 ≤ v) decreasing isDouble (extraBytes v + 1)).toNat : ℤ) =
      headerBase decreasing isDouble + headerClass v := by
  have hn := extraBytes_le v
  simp only [headerClass]
  generalize extraBytes v = n at hn ⊢
  by_cases h : 0 ≤ v <;> cases decreasing <;> cases isDouble <;> simp only [h] <;>
    interval_cases n <;> decide

private theorem compare_header (v w : Int64) (decreasing isDouble : Bool) :
    compare (isKey ||| int64TypeCode (0 ≤ v) decreasing isDouble (extraBytes v + 1))
        (isKey ||| int64TypeCode (0 ≤ w) decreasing isDouble (extraBytes w + 1)) =
      compare (headerClass v) (headerClass w) := by
  have hv := header_toNat v decreasing isDouble
  have hw := header_toNat w decreasing isDouble
  rw [compare_uint8]
  apply compare_eq_compare_of_lt_iff <;> omega

private theorem headerClass_mono {v w : Int64} (h : v.toInt ≤ w.toInt) :
    headerClass v ≤ headerClass w := by
  simp only [headerClass, toInt_nonneg_iff]
  split <;> split
  · have hd : distance v.toInt ≤ distance w.toInt := by
      simp only [distance]
      split_ifs
      omega
    have := extraBytes_mono hd
    omega
  · omega
  · omega
  · have hd : distance w.toInt ≤ distance v.toInt := by
      simp only [distance]
      split_ifs
      omega
    have := extraBytes_mono hd
    omega

/-- Values of one sign and length keep their order in the payload. -/
private theorem payload_of_class_eq {v w : Int64} (h : headerClass v = headerClass w) :
    extraBytes v = extraBytes w ∧
      compare (int64Payload v) (int64Payload w) = compare v.toInt w.toInt := by
  have hv := distance_lt v
  have hw := distance_lt w
  have hsame : (0 ≤ v.toInt ↔ 0 ≤ w.toInt) ∧ extraBytes v = extraBytes w := by
    simp only [headerClass, toInt_nonneg_iff] at h
    split at h <;> split at h <;> omega
  obtain ⟨hsign, hlen⟩ := hsame
  refine ⟨hlen, ?_⟩
  have hpow : (256 : ℤ) ^ (extraBytes w + 1) = 256 * 256 ^ extraBytes w := pow_succ' _ _
  have hcast : ((256 ^ extraBytes w : ℕ) : ℤ) = 256 ^ extraBytes w := by push_cast; rfl
  rw [hlen] at hv
  simp only [int64Payload, hlen, distance] at hv hw ⊢
  by_cases hn : 0 ≤ w.toInt
  · have hm := hsign.mpr hn
    rw [if_pos hm] at hv
    rw [if_pos hn] at hw
    rw [Int.emod_eq_of_lt (by omega) (by omega), Int.emod_eq_of_lt (by omega) (by omega)]
    apply compare_eq_compare_of_lt_iff <;> omega
  · have hm := mt hsign.mp hn
    rw [if_neg hm] at hv
    rw [if_neg hn] at hw
    rw [← Int.add_emod_right (2 * v.toInt), ← Int.add_emod_right (2 * w.toInt),
      Int.emod_eq_of_lt (by omega) (by omega), Int.emod_eq_of_lt (by omega) (by omega)]
    apply compare_eq_compare_of_lt_iff <;> omega

private theorem int64Payload_lt (v : Int64) : int64Payload v < 256 ^ (extraBytes v + 1) := by
  have hpos : (0 : ℤ) < 256 ^ (extraBytes v + 1) := by positivity
  have hlt := Int.emod_lt_of_pos (2 * v.toInt) hpos
  have hnn := Int.emod_nonneg (2 * v.toInt) hpos.ne'
  zify [int64Payload]
  omega

/-- Encoded integers compare as the integers do. -/
theorem int64Code_ordered (decreasing isDouble : Bool) :
    IsOrderedCode (fun v w : Int64 => compare v.toInt w.toInt)
      (int64Code decreasing isDouble) := by
  apply IsOrderedCode.header
  · intro v w hne
    rw [compare_header] at hne ⊢
    rcases lt_trichotomy (headerClass v) (headerClass w) with h | h | h
    · rw [compare_lt_iff_lt.mpr h, compare_lt_iff_lt]
      by_contra hge
      exact absurd (headerClass_mono (not_lt.mp hge)) (not_le.mpr h)
    · exact absurd (compare_eq_iff_eq.mpr h) hne
    · rw [compare_gt_iff_gt.mpr h, compare_gt_iff_gt]
      by_contra hge
      exact absurd (headerClass_mono (not_lt.mp hge)) (not_le.mpr h)
  · intro v w s t heq
    rw [compare_header, compare_eq_iff_eq] at heq
    obtain ⟨hlen, hcmp⟩ := payload_of_class_eq heq
    have hw := int64Payload_lt w
    have hv := int64Payload_lt v
    rw [hlen] at hv ⊢
    rw [compare_beBytes _ _ _ hv hw, hcmp]

/-- A comparison read in increasing or decreasing order. -/
def directed (decreasing : Bool) (o : Ordering) : Ordering :=
  if decreasing then o.swap else o

/-! ## Booleans -/

def boolCode (decreasing value : Bool) : Bytes :=
  if decreasing then appendBoolDecreasing [] value else appendBoolIncreasing [] value

theorem boolCode_ordered (decreasing : Bool) :
    IsOrderedCode (fun a b : Bool => directed decreasing (compare a.toNat b.toNat))
      (boolCode decreasing) := by
  refine ⟨fun a b s t => ?_⟩
  cases decreasing <;> cases a <;> cases b <;>
    simp only [boolCode, appendBoolIncreasing, appendBoolDecreasing, List.nil_append] <;> rfl

/-! ## Integers -/

def intCode (decreasing : Bool) (value : Int64) : Bytes :=
  if decreasing then appendInt64Decreasing [] value else appendInt64Increasing [] value

private theorem compare_not (v w : Int64) :
    compare (~~~v).toInt (~~~w).toInt = (compare v.toInt w.toInt).swap := by
  rw [toInt_not_bounded, toInt_not_bounded, ← Std.OrientedOrd.eq_swap]
  apply compare_eq_compare_of_lt_iff <;> omega

/-- Complementing before encoding reverses the order, whatever the header type. -/
private theorem int64_directed (decreasing isDouble : Bool) :
    IsOrderedCode (fun v w : Int64 => directed decreasing (compare v.toInt w.toInt))
      (fun v => appendInt64Internal [] v decreasing isDouble) := by
  simp only [appendInt64Internal_eq, List.nil_append]
  cases decreasing with
  | false => exact int64Code_ordered false isDouble
  | true =>
      exact ((int64Code_ordered true isDouble).comp (fun v => ~~~v)).congr_cmp compare_not

theorem intCode_ordered (decreasing : Bool) :
    IsOrderedCode (fun v w : Int64 => directed decreasing (compare v.toInt w.toInt))
      (intCode decreasing) := by
  cases decreasing with
  | false => exact int64_directed false false
  | true => exact int64_directed true false

/-! ## Floats -/

def doubleCode (decreasing : Bool) (value : F64) : Bytes :=
  if decreasing then appendDoubleDecreasing [] value else appendDoubleIncreasing [] value

private theorem toInt_toInt64 (u : UInt64) :
    u.toInt64.toInt = if 2 ^ 63 ≤ u.toNat then (u.toNat : ℤ) - 2 ^ 64 else (u.toNat : ℤ) := by
  have htoInt : u.toBitVec.toInt = u.toInt64.toInt := rfl
  have hnat : u.toNat = u.toBitVec.toNat := rfl
  rw [BitVec.toInt_eq_toNat_cond] at htoInt
  have hlt := u.toBitVec.isLt
  split at htoInt <;> split <;> omega

/-- Away from NaN the transformed pattern is the signed magnitude. -/
private theorem orderedDoubleBits_toInt (x : F64) (h : x.isNan = false) :
    (orderedDoubleBits x).toInt = x.rank := by
  have hbits := x.bits.toNat_lt
  have hcanon := toInt_toInt64 x.bits
  simp only [orderedDoubleBits, canonicalDoubleBits, F64.rank, h, F64.isSignNegative,
    F64.magnitude, Int64.lt_iff_toInt_lt, Bool.false_eq_true, ite_false, decide_eq_true_eq]
  have hzero : (0 : Int64).toInt = 0 := rfl
  have hmin : Int64.minValue.toInt = -2 ^ 63 := rfl
  by_cases hneg : 2 ^ 63 ≤ x.bits.toNat
  · rw [if_pos hneg] at hcanon
    rw [if_pos (by omega), if_pos hneg, Int64.toInt_sub, hmin, hcanon, Int.bmod_eq_of_le] <;> omega
  · rw [if_neg hneg] at hcanon
    rw [if_neg (by omega), if_neg hneg, hcanon]
    omega

private theorem orderedDoubleBits_nan (x : F64) (h : x.isNan = true) :
    (orderedDoubleBits x).toInt = 0x7ff8000000000000 := by
  simp only [orderedDoubleBits, canonicalDoubleBits, h, ite_true]
  decide

private theorem rank_le (x : F64) (h : x.isNan = false) : x.rank ≤ 0x7ff0000000000000 := by
  simp only [F64.isNan, decide_eq_false_iff_not, not_lt] at h
  simp only [F64.rank, F64.isNan, decide_eq_true_eq]
  split_ifs <;> omega

private theorem compare_orderedDoubleBits (x y : F64) :
    compare (orderedDoubleBits x).toInt (orderedDoubleBits y).toInt = x.totalCompare y := by
  have hnan : ∀ z : F64, z.isNan = true → z.rank = 2 ^ 63 := by
    intro z hz
    simp [F64.rank, hz]
  rw [F64.totalCompare]
  cases hx : x.isNan <;> cases hy : y.isNan
  · rw [orderedDoubleBits_toInt x hx, orderedDoubleBits_toInt y hy]
  · have := rank_le x hx
    rw [orderedDoubleBits_toInt x hx, orderedDoubleBits_nan y hy, hnan y hy]
    apply compare_eq_compare_of_lt_iff <;> omega
  · have := rank_le y hy
    rw [orderedDoubleBits_nan x hx, orderedDoubleBits_toInt y hy, hnan x hx]
    apply compare_eq_compare_of_lt_iff <;> omega
  · rw [orderedDoubleBits_nan x hx, orderedDoubleBits_nan y hy, hnan x hx, hnan y hy]
    apply compare_eq_compare_of_lt_iff <;> omega

theorem doubleCode_ordered (decreasing : Bool) :
    IsOrderedCode (fun x y : F64 => directed decreasing (x.totalCompare y))
      (doubleCode decreasing) := by
  have h := (int64_directed decreasing true).comp orderedDoubleBits
  have hc : IsOrderedCode (fun x y : F64 => directed decreasing (x.totalCompare y))
      (fun x => appendInt64Internal [] (orderedDoubleBits x) decreasing true) :=
    h.congr_cmp fun x y => by rw [compare_orderedDoubleBits]
  cases decreasing with
  | false => exact hc
  | true => exact hc

/-! ## Byte strings -/

def bytesCode (decreasing : Bool) (value : Bytes) : Bytes :=
  if decreasing then appendBytesDecreasing [] value else appendBytesIncreasing [] value

/-- Only `00` and `FF` are followed by an escape, each by one of its own. -/
def escapeSuffix (x : UInt8) : Bytes :=
  if x = 0x00 then [ascendingZeroEscape] else if x = 0xFF then [ascendingFfEscape] else []

private theorem escapeByte_eq (decreasing : Bool) (b : UInt8) :
    escapeByte decreasing b = (if decreasing then ~~~b else b) ::
      escapeSuffix (if decreasing then ~~~b else b) := by
  simp only [escapeByte, escapeSuffix]
  split_ifs with h0 hf <;> simp [*]

private theorem escape_ordered :
    IsOrderedCode (fun x y : UInt8 => compare x y) (fun x => x :: escapeSuffix x) := by
  apply IsOrderedCode.header
  · intro x y _
    rfl
  · intro x y s t heq
    obtain rfl := Std.LawfulEqOrd.eq_of_compare heq
    rw [heq]
    exact (IsOrderedCode.const (escapeSuffix x)).compare_append () () s t

private theorem compare_complement (a b : UInt8) :
    compare (~~~a) (~~~b) = (compare a b).swap := by
  have ha := a.toNat_lt
  have hb := b.toNat_lt
  rw [← Std.OrientedOrd.eq_swap, compare_uint8, compare_uint8, UInt8.toNat_not, UInt8.toNat_not]
  apply compare_eq_compare_of_lt_iff <;> simp only [UInt8.size] <;> omega

/-- Escaping keeps single bytes ordered in front of any continuation. -/
private theorem escapeByte_ordered (decreasing : Bool) :
    IsOrderedCode (fun a b : UInt8 => directed decreasing (compare a b))
      (escapeByte decreasing) := by
  have hcode := funext (escapeByte_eq decreasing)
  rw [hcode]
  cases decreasing with
  | false => exact escape_ordered
  | true => exact (escape_ordered.comp (fun b => ~~~b)).congr_cmp compare_complement

private theorem terminator_first (a : UInt8) (s t : Bytes) :
    compare ([0x00, sep] ++ s) (escapeByte false a ++ t) = .lt := by
  rw [escapeByte_eq]
  simp only [Bool.false_eq_true, ite_false, List.cons_append, List.compare_cons_cons]
  by_cases h : a = 0x00
  · subst h
    rfl
  · have hlt : compare 0x00 a = .lt := compare_lt_iff_lt.mpr (UInt8.pos_iff_ne_zero.mpr h)
    rw [hlt]
    rfl

private theorem terminator_last (a : UInt8) (s t : Bytes) :
    compare ([0xFF, sep] ++ s) (escapeByte true a ++ t) = .gt := by
  rw [escapeByte_eq]
  simp only [ite_true, List.cons_append, List.compare_cons_cons]
  generalize ~~~a = x
  by_cases h : x = 0xFF
  · subst h
    rfl
  · have hgt : compare 0xFF x = .gt := by
      have hx := x.toNat_lt
      have hne : x.toNat ≠ 255 := fun he => h (UInt8.toNat_inj.mp he)
      rw [compare_uint8, Nat.compare_eq_gt]
      change x.toNat < 255
      omega
    rw [hgt]
    rfl

/-- Byte strings are ordered lexicographically, reversed when decreasing. -/
theorem bytesCode_ordered (decreasing : Bool) :
    IsOrderedCode (fun a b : Bytes => directed decreasing (compare a b))
      (bytesCode decreasing) := by
  cases decreasing with
  | false =>
      have h := (escapeByte_ordered false).sequence [0x00, sep] terminator_first (by decide)
      have hseq := (IsOrderedCode.const [isKey ||| typeString]).append h
      have hcode : bytesCode false = fun value =>
          [isKey ||| typeString] ++ (value.flatMap (escapeByte false) ++ [0x00, sep]) := by
        funext value
        simp [bytesCode, appendBytesIncreasing, appendByteSequence]
      rw [hcode]
      exact hseq.congr_cmp (fun a b => lexWith_lt _ a b)
  | true =>
      have h := (escapeByte_ordered true).sequence [0xFF, sep] terminator_last (by decide)
      have hseq := (IsOrderedCode.const [isKey ||| typeDecreasingString]).append h
      have hcode : bytesCode true = fun value =>
          [isKey ||| typeDecreasingString] ++
            (value.flatMap (escapeByte true) ++ [0xFF, sep]) := by
        funext value
        simp [bytesCode, appendBytesDecreasing, appendByteSequence]
      rw [hcode]
      exact hseq.congr_cmp (fun a b => lexWith_gt_swap _ a b)

/-! ## Timestamps -/

/-- Adding `i64::MIN` turns the signed order into the unsigned one. -/
private theorem toNat_offsetSeconds (seconds : Int64) :
    ((seconds + timestampSecondsOffset).toUInt64.toNat : ℤ) = seconds.toInt + 2 ^ 63 := by
  have hlo := seconds.le_toInt
  have hhi := seconds.toInt_lt
  have hmin : timestampSecondsOffset.toInt = -2 ^ 63 := rfl
  rw [toNat_toUInt64, Int64.toInt_add, hmin]
  by_cases hneg : seconds.toInt < 0
  · have hb : (seconds.toInt + -2 ^ 63).bmod (2 ^ 64) = seconds.toInt + 2 ^ 63 := by
      rw [← Int.add_bmod_right, Int.bmod_eq_of_le] <;> omega
    rw [hb]
    omega
  · rw [Int.bmod_eq_of_le] <;> omega

private theorem toNat_nanos (nanos : ℕ) (h : nanos < 2 ^ 31) :
    (Int32.ofNat nanos).toUInt32.toNat = nanos := by
  have hcast : (Int32.ofNat nanos).toUInt32 = UInt32.ofNat nanos := rfl
  rw [hcast, UInt32.toNat_ofNat']
  omega

/-- Twelve-byte timestamps compare by seconds, then by nanoseconds. -/
theorem compare_encodeTimestamp (s s' : Int64) (n n' : ℕ) (hn : n < 2 ^ 31) (hn' : n' < 2 ^ 31) :
    compare (encodeTimestamp s (Int32.ofNat n)) (encodeTimestamp s' (Int32.ofNat n')) =
      (compare s.toInt s'.toInt).then (compare n n') := by
  have hs := toNat_offsetSeconds s
  have hs' := toNat_offsetSeconds s'
  have hlt := (s + timestampSecondsOffset).toUInt64.toNat_lt
  have hlt' := (s' + timestampSecondsOffset).toUInt64.toNat_lt
  have hseconds : compare (s + timestampSecondsOffset).toUInt64.toNat
      (s' + timestampSecondsOffset).toUInt64.toNat = compare s.toInt s'.toInt := by
    apply compare_eq_compare_of_lt_iff <;> omega
  have hnanos := compare_beBytes 4 n n' (by omega) (by omega) [] []
  rw [List.append_nil, List.append_nil] at hnanos
  simp only [encodeTimestamp, i64ToBeBytes]
  rw [compare_beBytes 8 _ _ hlt hlt', toNat_nanos n hn, toNat_nanos n' hn', hnanos, hseconds]
  cases compare n n' <;> rfl

end GoogleCloudRust.SsFormat

import GoogleCloudRust.Verification.KeyRecipe.Order
import Mathlib.Data.List.Forall2
import Mathlib.Data.Nat.Digits.Defs
import Mathlib.Tactic.Ring

/-! # Texts of UUIDs

A UUID column reads 32 hexadecimal digits in five groups, with braces around them or not, and
compares the 16 bytes of the number that they write. -/

namespace GoogleCloudRust.KeyRecipe

open SsFormat

variable {uuidString : String} {byte : UInt8} {value result : UInt64} {digits text bytes : Bytes}

/-! ## Hexadecimal numbers -/

/-- The value of a hexadecimal digit in lower or upper case. -/
def hexValue (byte : UInt8) : Option ℕ :=
  "0123456789abcdef".toList.idxOf? (Char.ofNat byte.toNat).toLower

/-- The values of hexadecimal digits. -/
def HexDigits (digits : Bytes) (values : List ℕ) : Prop :=
  List.Forall₂ (fun byte value => hexValue byte = some value) digits values

/-- The number that digits in base 16 write, the highest of which is the first. -/
def hexNumber (values : List ℕ) : ℕ := Nat.ofDigits 16 values.reverse

theorem hexNumber_append (front back : List ℕ) :
    hexNumber (front ++ back) = hexNumber front * 16 ^ back.length + hexNumber back := by
  rw [hexNumber, List.reverse_append, Nat.ofDigits_append, List.length_reverse, hexNumber,
    hexNumber, Nat.add_comm, Nat.mul_comm]

theorem hexNumber_cons (value : ℕ) (values : List ℕ) :
    hexNumber (value :: values) = value * 16 ^ values.length + hexNumber values := by
  rw [← List.singleton_append, hexNumber_append]
  simp [hexNumber]

theorem hexValue_ofNat : ∀ n < 256, hexValue (UInt8.ofNat n) =
    if 0x30 ≤ n ∧ n ≤ 0x39 then some (n - 0x30)
    else if 0x61 ≤ n ∧ n ≤ 0x66 then some (n - 0x61 + 10)
    else if 0x41 ≤ n ∧ n ≤ 0x46 then some (n - 0x41 + 10)
    else none := by
  decide +kernel

theorem hexValue_lt {n : ℕ} (h : hexValue byte = some n) : n < 16 := by
  have hread := hexValue_ofNat byte.toNat byte.toNat_lt
  rw [UInt8.ofNat_toNat, h] at hread
  split_ifs at hread
  · cases hread
    omega
  · cases hread
    omega
  · cases hread
    omega

theorem toNat_shiftLeft_or {high low k : UInt64} (hk : k.toNat < 64)
    (hhigh : high.toNat * 2 ^ k.toNat < 2 ^ 64) (hlow : low.toNat < 2 ^ k.toNat) :
    ((high <<< k) ||| low).toNat = high.toNat * 2 ^ k.toNat + low.toNat := by
  have hshift : (high <<< k).toNat = high.toNat <<< k.toNat := by
    rw [UInt64.toNat_shiftLeft, Nat.mod_eq_of_lt hk, Nat.shiftLeft_eq]
    exact Nat.mod_eq_of_lt hhigh
  rw [UInt64.toNat_or, hshift, ← Nat.shiftLeft_add_eq_or_of_lt hlow, Nat.shiftLeft_eq]

/-- A hexadecimal digit is appended to the number, and another byte is refused. -/
theorem pushHexDigit_spec (uuidString : String) (byte : UInt8) (hvalue : value.toNat < 2 ^ 60) :
    (∃ digit next, hexValue byte = some digit ∧ digit < 16 ∧
      pushHexDigit uuidString value byte = .ok next ∧ next.toNat = value.toNat * 16 + digit) ∨
    (hexValue byte = none ∧ ∃ error, pushHexDigit uuidString value byte = .error error) := by
  have hread := hexValue_ofNat byte.toNat byte.toNat_lt
  rw [UInt8.ofNat_toNat] at hread
  have hpush : ∀ digit : UInt8, digit.toNat < 16 →
      ((value <<< 4) ||| digit.toUInt64).toNat = value.toNat * 16 + digit.toNat := by
    intro digit hdigit
    exact toNat_shiftLeft_or (k := 4) (by decide) (by simpa using by omega) (by simpa using hdigit)
  have hsub : ∀ low : UInt8, low.toNat ≤ byte.toNat → (byte - low).toNat = byte.toNat - low.toNat :=
    fun low hlow => UInt8.toNat_sub_of_le byte low (UInt8.le_iff_toNat_le.mpr hlow)
  simp only [pushHexDigit, UInt8.le_iff_toNat_le, UInt8.toNat_ofNat, Nat.reducePow, Nat.reduceMod]
  split_ifs at hread ⊢ with hdecimal hlower hupper
  · have hdigit : (byte - 0x30).toNat = byte.toNat - 0x30 := hsub 0x30 hdecimal.1
    refine .inl ⟨_, _, hread, by omega, rfl, ?_⟩
    rw [hpush _ (by omega), hdigit]
  · have hdigit : (byte - 0x61 + 10).toNat = byte.toNat - 0x61 + 10 := by
      rw [UInt8.toNat_add, hsub 0x61 hlower.1]
      exact Nat.mod_eq_of_lt (by simp; omega)
    refine .inl ⟨_, _, hread, by omega, rfl, ?_⟩
    rw [hpush _ (by omega), hdigit]
  · have hdigit : (byte - 0x41 + 10).toNat = byte.toNat - 0x41 + 10 := by
      rw [UInt8.toNat_add, hsub 0x41 hupper.1]
      exact Nat.mod_eq_of_lt (by simp; omega)
    refine .inl ⟨_, _, hread, by omega, rfl, ?_⟩
    rw [hpush _ (by omega), hdigit]
  · exact .inr ⟨hread, _, rfl⟩

theorem foldlM_pushHexDigit (h : (value.toNat + 1) * 16 ^ digits.length ≤ 2 ^ 64) :
    digits.foldlM (pushHexDigit uuidString) value = .ok result ↔
      ∃ values, HexDigits digits values ∧
        result.toNat = value.toNat * 16 ^ digits.length + hexNumber values := by
  induction digits generalizing value with
  | nil =>
      constructor
      · intro hresult
        cases hresult
        exact ⟨[], .nil, by simp [hexNumber]⟩
      · rintro ⟨values, hvalues, hresult⟩
        cases hvalues
        have hsame : value = result := UInt64.toNat_inj.mp (by simpa [hexNumber] using hresult.symm)
        rw [hsame]
        rfl
  | cons byte digits ih =>
      rw [List.length_cons, pow_succ'] at h ⊢
      have hpos : 1 ≤ 16 ^ digits.length := Nat.one_le_pow _ _ (by decide)
      have hvalue : (value.toNat + 1) * 16 ≤ 2 ^ 64 := by
        refine le_trans (Nat.mul_le_mul_left _ ?_) h
        omega
      rw [List.foldlM_cons]
      rcases pushHexDigit_spec uuidString byte (by omega : value.toNat < 2 ^ 60) with
        ⟨digit, next, hdigit, hlt, hpush, hnext⟩ | ⟨hnone, error, hpush⟩
      · have hroom : (next.toNat + 1) * 16 ^ digits.length ≤ 2 ^ 64 := by
          refine le_trans ?_ h
          rw [← Nat.mul_assoc]
          exact Nat.mul_le_mul_right _ (by omega)
        rw [hpush]
        refine (ih hroom).trans ?_
        constructor
        · rintro ⟨values, hvalues, hresult⟩
          refine ⟨digit :: values, .cons hdigit hvalues, ?_⟩
          rw [hresult, hnext, hexNumber_cons, ← hvalues.length_eq]
          ring
        · rintro ⟨values, hvalues, hresult⟩
          cases hvalues with
          | cons hfirst hrest =>
              cases hdigit.symm.trans hfirst
              refine ⟨_, hrest, ?_⟩
              rw [hresult, hnext, hexNumber_cons, ← hrest.length_eq]
              ring
      · rw [hpush]
        constructor
        · rintro ⟨⟩
        · rintro ⟨values, hvalues, -⟩
          cases hvalues with
          | cons hfirst hrest => cases hnone.symm.trans hfirst

theorem HexDigits.hexNumber_lt {values : List ℕ} (h : HexDigits digits values) :
    hexNumber values < 16 ^ digits.length := by
  have hvalues : ∀ value ∈ values, value < 16 := by
    induction h with
    | nil => simp
    | cons hbyte hrest ih => exact List.forall_mem_cons.mpr ⟨hexValue_lt hbyte, ih⟩
  rw [List.Forall₂.length_eq h, hexNumber, ← List.length_reverse]
  exact Nat.ofDigits_lt_base_pow_length (by decide) fun value hvalue =>
    hvalues value (List.mem_reverse.mp hvalue)

/-! ## Groups -/

/-- The text is cut at a position. -/
theorem eq_take_append_getD {n : ℕ} (h : n < text.length) :
    text = text.take n ++ text.getD n 0 :: text.drop (n + 1) := by
  have hget : text.getD n 0 = text[n] := by simp [h]
  rw [hget, List.getElem_cons_drop, List.take_append_drop]

theorem uuidText_eq_ok_iff : uuidText uuidString = .ok text ↔
    text.length = 36 ∧
      (strBytes uuidString = text ∨ strBytes uuidString = 0x7b :: text ++ [0x7d]) := by
  unfold uuidText
  generalize strBytes uuidString = bytes
  constructor
  · intro h
    simp only at h
    split_ifs at h with hplain hbraced hmalformed
    · cases h
      exact ⟨hplain, .inl rfl⟩
    · rw [not_or, not_not, not_not] at hmalformed
      cases h
      refine ⟨by simp [slice, hbraced], .inr ?_⟩
      have hlast := eq_take_append_getD (n := 37) (hbraced ▸ by decide : 37 < bytes.length)
      have hfirst : bytes.take 37 = 0x7b :: slice bytes 1 37 := by
        have hfirst := eq_take_append_getD (n := 0) (by simp [hbraced] : 0 < (bytes.take 37).length)
        rw [← hmalformed.1]
        simpa [hbraced, slice] using hfirst
      rw [hmalformed.2, hfirst, List.drop_eq_nil_of_le hbraced.le] at hlast
      exact hlast
  · rintro ⟨hlength, rfl | rfl⟩
    · simp [hlength]
    · simp [hlength, slice]

/-- A group up to a hyphen. -/
theorem drop_eq_group {lo hi : ℕ} (hle : lo ≤ hi) (h : hi < text.length)
    (hhyphen : text.getD hi 0 = 0x2d) :
    text.drop lo = slice text lo hi ++ 0x2d :: text.drop (hi + 1) := by
  have hcut := eq_take_append_getD (n := hi - lo) (by simp; omega : hi - lo < (text.drop lo).length)
  have hhead : (text.drop lo).getD (hi - lo) 0 = 0x2d := by
    rw [← hhyphen]
    simp [Nat.add_sub_cancel' hle]
  rw [hhead, List.drop_drop, show lo + (hi - lo + 1) = hi + 1 by omega, ← List.drop_take] at hcut
  exact hcut

theorem intercalate_groups (a b c d e : Bytes) :
    [0x2d].intercalate [a, b, c, d, e] =
      a ++ 0x2d :: (b ++ 0x2d :: (c ++ 0x2d :: (d ++ 0x2d :: e))) := by
  simp [List.intercalate]

/-- The hyphens separate five groups. -/
theorem eq_intercalate_slices (h : text.length = 36) (h8 : text.getD 8 0 = 0x2d)
    (h13 : text.getD 13 0 = 0x2d) (h18 : text.getD 18 0 = 0x2d) (h23 : text.getD 23 0 = 0x2d) :
    text = [0x2d].intercalate [slice text 0 8, slice text 9 13, slice text 14 18, slice text 19 23,
      slice text 24 36] := by
  have hlast : slice text 24 36 = text.drop 24 := by rw [slice, ← h, List.take_length]
  have hsplit : text.drop 0 = _ := drop_eq_group (Nat.zero_le 8) (by omega) h8
  rw [drop_eq_group (by decide : 9 ≤ 13) (by omega) h13,
    drop_eq_group (by decide : 14 ≤ 18) (by omega) h18,
    drop_eq_group (by decide : 19 ≤ 23) (by omega) h23, List.drop_zero] at hsplit
  rw [intercalate_groups, hlast]
  exact hsplit

theorem slices_length (h : text.length = 36) :
    [slice text 0 8, slice text 9 13, slice text 14 18, slice text 19 23, slice text 24 36].map
      List.length = [8, 4, 4, 4, 12] := by
  simp [slice, h]

theorem slices_intercalate {a b c d e : Bytes} (ha : a.length = 8) (hb : b.length = 4)
    (hc : c.length = 4) (hd : d.length = 4) (he : e.length = 12)
    (h : text = [0x2d].intercalate [a, b, c, d, e]) :
    (slice text 0 8 = a ∧ slice text 9 13 = b ∧ slice text 14 18 = c ∧ slice text 19 23 = d ∧
      slice text 24 36 = e) ∧
    text.getD 8 0 = 0x2d ∧ text.getD 13 0 = 0x2d ∧ text.getD 18 0 = 0x2d ∧
      text.getD 23 0 = 0x2d ∧ text.length = 36 := by
  rw [intercalate_groups] at h
  subst h
  simp [slice, List.take_append, List.drop_append, List.drop_eq_nil_of_le, List.take_of_length_le,
    ha, hb, hc, hd, he]

/-! ## The whole text -/

/-- Five groups of digits with hyphens between them write a number. -/
def WritesUuid (text : Bytes) (number : ℕ) : Prop :=
  ∃ (groups : List Bytes) (values : List (List ℕ)), groups.map List.length = [8, 4, 4, 4, 12] ∧
    text = [0x2d].intercalate groups ∧ List.Forall₂ HexDigits groups values ∧
    number = hexNumber values.flatten

/-- A string that writes a UUID, in braces or not. -/
def IsUuid (uuidString : String) (number : ℕ) : Prop :=
  ∃ text, (strBytes uuidString = text ∨ strBytes uuidString = 0x7b :: text ++ [0x7d]) ∧
    WritesUuid text number

/-- The shifts and disjunctions put the groups one behind the other. -/
theorem encodeUuid_groups {timeLow timeMid timeHigh clockSeq node : UInt64}
    (hlow : timeLow.toNat < 16 ^ 8) (hmid : timeMid.toNat < 16 ^ 4)
    (hhigh : timeHigh.toNat < 16 ^ 4) (hclock : clockSeq.toNat < 16 ^ 4)
    (hnode : node.toNat < 16 ^ 12) :
    encodeUuid ((timeLow <<< 32) ||| (timeMid <<< 16) ||| timeHigh) ((clockSeq <<< 48) ||| node) =
      beBytes 16 ((((timeLow.toNat * 16 ^ 4 + timeMid.toNat) * 16 ^ 4 + timeHigh.toNat) * 16 ^ 4 +
        clockSeq.toNat) * 16 ^ 12 + node.toNat) := by
  have hinner : ((timeMid <<< 16) ||| timeHigh).toNat = timeMid.toNat * 2 ^ 16 + timeHigh.toNat :=
    toNat_shiftLeft_or (k := 16) (by decide) (by simp; omega) (by simpa using hhigh)
  have houter : ((timeLow <<< 32) ||| ((timeMid <<< 16) ||| timeHigh)).toNat =
      timeLow.toNat * 2 ^ 32 + (timeMid.toNat * 2 ^ 16 + timeHigh.toNat) := by
    rw [← hinner]
    exact toNat_shiftLeft_or (k := 32) (by decide) (by simp; omega) (by rw [hinner]; simp; omega)
  have hback : ((clockSeq <<< 48) ||| node).toNat = clockSeq.toNat * 2 ^ 48 + node.toNat :=
    toNat_shiftLeft_or (k := 48) (by decide) (by simp; omega) (by simpa using hnode)
  rw [encodeUuid, UInt64.or_assoc, houter, hback, beBytes_append 8 8 _ _ (by omega)]
  exact congrArg (beBytes 16) (by ring)

theorem hexNumber_groups {a b c d e : List ℕ} (hb : b.length = 4) (hc : c.length = 4)
    (hd : d.length = 4) (he : e.length = 12) :
    hexNumber (List.flatten [a, b, c, d, e]) =
      (((hexNumber a * 16 ^ 4 + hexNumber b) * 16 ^ 4 + hexNumber c) * 16 ^ 4 + hexNumber d) *
        16 ^ 12 + hexNumber e := by
  have hflat : List.flatten [a, b, c, d, e] = a ++ b ++ c ++ d ++ e := by simp
  rw [hflat, hexNumber_append, hexNumber_append, hexNumber_append, hexNumber_append, hb, hc, hd, he]

theorem bind_eq_ok {ε α β : Type} {x : Except ε α} {f : α → Except ε β} {b : β} :
    x >>= f = .ok b ↔ ∃ a, x = .ok a ∧ f a = .ok b := by
  cases x with
  | error e =>
      constructor
      · rintro ⟨⟩
      · rintro ⟨a, ⟨⟩, -⟩
  | ok a =>
      constructor
      · exact fun h => ⟨a, rfl, h⟩
      · rintro ⟨a, ⟨⟩, h⟩
        exact h

/-- The groups of digits are read, and their numbers are put together. -/
structure ReadsGroups (uuidString : String) (text bytes : Bytes)
    (timeLow timeMid timeHigh clockSeq node : UInt64) : Prop where
  low : parseHexDigits (slice text 0 8) uuidString = .ok timeLow
  mid : parseHexDigits (slice text 9 13) uuidString = .ok timeMid
  high : parseHexDigits (slice text 14 18) uuidString = .ok timeHigh
  clock : parseHexDigits (slice text 19 23) uuidString = .ok clockSeq
  last : parseHexDigits (slice text 24 36) uuidString = .ok node
  joined : bytes = encodeUuid ((timeLow <<< 32) ||| (timeMid <<< 16) ||| timeHigh)
    ((clockSeq <<< 48) ||| node)

theorem parseUuidBytes_groups : parseUuidBytes uuidString = .ok bytes ↔
    ∃ text, uuidText uuidString = .ok text ∧
      (text.getD 8 0 = 0x2d ∧ text.getD 13 0 = 0x2d ∧ text.getD 18 0 = 0x2d ∧
        text.getD 23 0 = 0x2d) ∧
      ∃ timeLow timeMid timeHigh clockSeq node,
        ReadsGroups uuidString text bytes timeLow timeMid timeHigh clockSeq node := by
  rw [parseUuidBytes, bind_eq_ok]
  refine exists_congr fun text => and_congr_right fun _ => ?_
  split_ifs with hmalformed
  · constructor
    · rintro ⟨⟩
    · rintro ⟨⟨h8, h13, h18, h23⟩, -⟩
      rw [h8, h13, h18, h23] at hmalformed
      simp at hmalformed
  · simp only [not_or, not_not] at hmalformed
    simp only [bind_eq_ok]
    constructor
    · rintro ⟨timeLow, hlow, timeMid, hmid, timeHigh, hhigh, clockSeq, hclock, node, hnode, hbytes⟩
      cases hbytes
      exact ⟨hmalformed, _, _, _, _, _, hlow, hmid, hhigh, hclock, hnode, rfl⟩
    · rintro ⟨-, _, _, _, _, _, hlow, hmid, hhigh, hclock, hnode, hbytes⟩
      rw [hbytes]
      exact ⟨_, hlow, _, hmid, _, hhigh, _, hclock, _, hnode, rfl⟩

/-- A group, and the number that is read from it. -/
structure ReadsGroup (digits : Bytes) (values : List ℕ) (number : UInt64) : Prop where
  digits : HexDigits digits values
  number : number.toNat = hexNumber values

theorem HexDigits.reads {values : List ℕ} (h : HexDigits digits values)
    (hlength : digits.length ≤ 16) : ∃ number, ReadsGroup digits values number := by
  refine ⟨UInt64.ofNat (hexNumber values), h, UInt64.toNat_ofNat_of_lt' ?_⟩
  exact h.hexNumber_lt.trans_le (Nat.pow_le_pow_right (by decide) hlength)

theorem ReadsGroup.lt {values : List ℕ} {number : UInt64} (h : ReadsGroup digits values number) :
    number.toNat < 16 ^ digits.length := by
  rw [h.number]
  exact h.digits.hexNumber_lt

theorem parseHexDigits_reads_iff (h : digits.length ≤ 16) :
    parseHexDigits digits uuidString = .ok result ↔ ∃ values, ReadsGroup digits values result := by
  have hroom : ((0 : UInt64).toNat + 1) * 16 ^ digits.length ≤ 2 ^ 64 := by
    rw [UInt64.toNat_zero, Nat.zero_add, Nat.one_mul]
    exact Nat.pow_le_pow_right (by decide) h
  rw [parseHexDigits, foldlM_pushHexDigit hroom]
  simp only [UInt64.toNat_zero, Nat.zero_mul, Nat.zero_add]
  exact exists_congr fun values => ⟨fun h => ⟨h.1, h.2⟩, fun h => ⟨h.digits, h.number⟩⟩

/-- The groups put together write the whole number. -/
theorem encodeUuid_reads {a b c d e : Bytes} {va vb vc vd ve : List ℕ}
    {timeLow timeMid timeHigh clockSeq node : UInt64} (ha : a.length = 8) (hb : b.length = 4)
    (hc : c.length = 4) (hd : d.length = 4) (he : e.length = 12) (hlow : ReadsGroup a va timeLow)
    (hmid : ReadsGroup b vb timeMid) (hhigh : ReadsGroup c vc timeHigh)
    (hclock : ReadsGroup d vd clockSeq) (hnode : ReadsGroup e ve node) :
    encodeUuid ((timeLow <<< 32) ||| (timeMid <<< 16) ||| timeHigh) ((clockSeq <<< 48) ||| node) =
      beBytes 16 (hexNumber (List.flatten [va, vb, vc, vd, ve])) := by
  have hbound := encodeUuid_groups (ha ▸ hlow.lt) (hb ▸ hmid.lt) (hc ▸ hhigh.lt) (hd ▸ hclock.lt)
    (he ▸ hnode.lt)
  rw [hbound, hexNumber_groups (hmid.digits.length_eq ▸ hb) (hhigh.digits.length_eq ▸ hc)
    (hclock.digits.length_eq ▸ hd) (hnode.digits.length_eq ▸ he), hlow.number, hmid.number,
    hhigh.number, hclock.number, hnode.number]

/-- The texts that are read, and what is read from them. -/
theorem parseUuidBytes_eq_ok_iff : parseUuidBytes uuidString = .ok bytes ↔
    ∃ number, IsUuid uuidString number ∧ bytes = beBytes 16 number := by
  rw [parseUuidBytes_groups]
  constructor
  · rintro ⟨text, htext, ⟨h8, h13, h18, h23⟩, timeLow, timeMid, timeHigh, clockSeq, node, hgroups⟩
    obtain ⟨hlength, hbraces⟩ := uuidText_eq_ok_iff.mp htext
    have hlengths := slices_length hlength
    simp only [List.map_cons, List.map_nil, List.cons.injEq, and_true] at hlengths
    obtain ⟨ha, hb, hc, hd, he⟩ := hlengths
    obtain ⟨va, hlow⟩ := (parseHexDigits_reads_iff (by omega)).mp hgroups.low
    obtain ⟨vb, hmid⟩ := (parseHexDigits_reads_iff (by omega)).mp hgroups.mid
    obtain ⟨vc, hhigh⟩ := (parseHexDigits_reads_iff (by omega)).mp hgroups.high
    obtain ⟨vd, hclock⟩ := (parseHexDigits_reads_iff (by omega)).mp hgroups.clock
    obtain ⟨ve, hnode⟩ := (parseHexDigits_reads_iff (by omega)).mp hgroups.last
    refine ⟨_, ⟨text, hbraces, _, [va, vb, vc, vd, ve], slices_length hlength,
      eq_intercalate_slices hlength h8 h13 h18 h23, .cons hlow.digits (.cons hmid.digits
        (.cons hhigh.digits (.cons hclock.digits (.cons hnode.digits .nil)))), rfl⟩, ?_⟩
    rw [hgroups.joined]
    exact encodeUuid_reads ha hb hc hd he hlow hmid hhigh hclock hnode
  · rintro ⟨number, ⟨text, hbraces, groups, values, hlengths, htext, hdigits, rfl⟩, rfl⟩
    obtain ⟨a, b, c, d, e, rfl⟩ : ∃ a b c d e, groups = [a, b, c, d, e] := by
      have hlength := congrArg List.length hlengths
      rw [List.length_map] at hlength
      match groups, hlength with
      | [a, b, c, d, e], _ => exact ⟨a, b, c, d, e, rfl⟩
    simp only [List.map_cons, List.map_nil, List.cons.injEq, and_true] at hlengths
    obtain ⟨ha, hb, hc, hd, he⟩ := hlengths
    cases hdigits with | cons hva hdigits =>
    cases hdigits with | cons hvb hdigits =>
    cases hdigits with | cons hvc hdigits =>
    cases hdigits with | cons hvd hdigits =>
    cases hdigits with | cons hve hdigits =>
    cases hdigits
    obtain ⟨timeLow, hlow⟩ := hva.reads (by omega)
    obtain ⟨timeMid, hmid⟩ := hvb.reads (by omega)
    obtain ⟨timeHigh, hhigh⟩ := hvc.reads (by omega)
    obtain ⟨clockSeq, hclock⟩ := hvd.reads (by omega)
    obtain ⟨node, hnode⟩ := hve.reads (by omega)
    obtain ⟨⟨rfl, rfl, rfl, rfl, rfl⟩, h8, h13, h18, h23, hlength⟩ :=
      slices_intercalate ha hb hc hd he htext
    exact ⟨text, uuidText_eq_ok_iff.mpr ⟨hlength, hbraces⟩, ⟨h8, h13, h18, h23⟩,
      timeLow, timeMid, timeHigh, clockSeq, node,
      (parseHexDigits_reads_iff (by omega)).mpr ⟨_, hlow⟩,
      (parseHexDigits_reads_iff (by omega)).mpr ⟨_, hmid⟩,
      (parseHexDigits_reads_iff (by omega)).mpr ⟨_, hhigh⟩,
      (parseHexDigits_reads_iff (by omega)).mpr ⟨_, hclock⟩,
      (parseHexDigits_reads_iff (by omega)).mpr ⟨_, hnode⟩,
      (encodeUuid_reads ha hb hc hd he hlow hmid hhigh hclock hnode).symm⟩

theorem WritesUuid.lt {number : ℕ} (h : WritesUuid text number) : number < 256 ^ 16 := by
  obtain ⟨groups, values, hlengths, -, hdigits, rfl⟩ := h
  have hflat : HexDigits groups.flatten values.flatten := by
    clear hlengths
    induction hdigits with
    | nil => exact .nil
    | cons hgroup hrest ih => exact List.rel_append hgroup ih
  have hlength : groups.flatten.length = 32 := by
    rw [List.length_flatten, hlengths]
    rfl
  have hlt := hflat.hexNumber_lt
  rw [hlength] at hlt
  exact hlt.trans_eq (by norm_num)

/-- UUID columns are ordered by the numbers that are written. -/
theorem compareSemantic_uuid (P : TextParsers) {v w : Value} {s t : String} {m n : ℕ}
    (hv : v.asStr = some s) (hw : w.asStr = some t) (hm : IsUuid s m) (hn : IsUuid t n) :
    compareSemantic P .uuid v w = compare m n := by
  have hs : denotedText parseUuidBytes v = .ok (beBytes 16 m) := by
    rw [denotedText, hv]
    exact parseUuidBytes_eq_ok_iff.mpr ⟨m, hm, rfl⟩
  have ht : denotedText parseUuidBytes w = .ok (beBytes 16 n) := by
    rw [denotedText, hw]
    exact parseUuidBytes_eq_ok_iff.mpr ⟨n, hn, rfl⟩
  obtain ⟨_, -, hm⟩ := hm
  obtain ⟨_, -, hn⟩ := hn
  have hcompare := compare_beBytes 16 m n hm.lt hn.lt [] []
  rw [compareSemantic, compareBy, hs, ht]
  simpa using hcompare

end GoogleCloudRust.KeyRecipe

import GoogleCloudRust.Model.JsonInteger

/-! # What the integer visitors accept

Integers and integer texts are accepted exactly. A double is accepted as the integer it stands for,
and at 64 bits one more double is, the one that the largest value is rounded to. -/

namespace GoogleCloudRust.Wkt

/-! ## Integers -/

theorem IntType.val_ofInt {t : IntType} {n : ℤ} (hmin : t.min ≤ n) (hmax : n ≤ t.max) :
    (t.ofInt n : ℤ) = n := by
  simp only [IntType.ofInt]
  rw [Int.emod_eq_of_lt (by omega) (by omega)]
  omega

/-- A cast behind a range check is exact. -/
theorem check_eq_ok {t : IntType} {m : ℤ} {n : t.Value} {e : VisitError} {outside : Prop}
    [Decidable outside] (h : outside ↔ ¬(t.min ≤ m ∧ m ≤ t.max)) :
    (if outside then .error e else .ok (t.ofInt m) : Except VisitError t.Value) = .ok n ↔
      (n : ℤ) = m := by
  by_cases hin : t.min ≤ m ∧ m ≤ t.max
  · rw [if_neg (by rw [h]; exact not_not.mpr hin), Except.ok.injEq, Subtype.ext_iff,
      IntType.val_ofInt hin.1 hin.2]
    exact eq_comm
  · rw [if_pos (h.mpr hin)]
    constructor
    · intro hok
      cases hok
    · intro hn
      exact absurd (hn ▸ n.property) hin

theorem min_as_i64 (t : IntType) : (IntType.i64.ofInt t.min : ℤ) = t.min := by
  cases t <;> decide

theorem max_as_u64 (t : IntType) : (IntType.u64.ofInt t.max : ℤ) = t.max := by
  cases t <;> decide

theorem visitI64_32_eq_ok {t : IntType} (hmax : t.max < 2 ^ 63) (msg : String) (value : Int64)
    (n : t.Value) : Visitor32.visitI64 t msg value = .ok n ↔ (n : ℤ) = value.toInt := by
  have hcast : (IntType.i64.ofInt t.max : ℤ) = t.max := by
    have hbounds := t.bounds
    apply IntType.val_ofInt
    · change -2 ^ 63 ≤ t.max
      omega
    · change t.max ≤ 2 ^ 63 - 1
      omega
  rw [Visitor32.visitI64, ← ite_or, min_as_i64, hcast]
  apply check_eq_ok
  omega

/-- There is no upper check, since no `i64` is too large. -/
theorem visitI64_64_eq_ok {t : IntType} (hmax : 2 ^ 63 - 1 ≤ t.max) (msg : String) (value : Int64)
    (n : t.Value) : Visitor64.visitI64 t msg value = .ok n ↔ (n : ℤ) = value.toInt := by
  have hupper := value.toInt_lt
  rw [Visitor64.visitI64, min_as_i64]
  apply check_eq_ok
  omega

theorem visitI64_eq_ok (t : IntType) (value : Int64) (n : t.Value) :
    (visitor t).visitI64 value = .ok n ↔ (n : ℤ) = value.toInt := by
  cases t with
  | i32 => exact visitI64_32_eq_ok (by decide) _ value n
  | u32 => exact visitI64_32_eq_ok (by decide) _ value n
  | i64 => exact visitI64_64_eq_ok (by decide) _ value n
  | u64 => exact visitI64_64_eq_ok (by decide) _ value n

/-- The methods for a `u64` are the same, with one check, since no `u64` is too small. -/
theorem visitU64_eq_ok (t : IntType) (value : UInt64) (n : t.Value) :
    (visitor t).visitU64 value = .ok n ↔ (n : ℤ) = value.toNat := by
  have hcheck : ∀ msg : String, Visitor64.visitU64 t msg value = .ok n ↔ (n : ℤ) = value.toNat := by
    intro msg
    have hbounds := t.bounds
    rw [Visitor64.visitU64, max_as_u64]
    apply check_eq_ok
    omega
  cases t <;> exact hcheck _

theorem visitI128_eq_ok (t : IntType) (msg : String) (value : ℤ) (n : t.Value) :
    Visitor64.visitI128 t msg value = .ok n ↔ (n : ℤ) = value := by
  rw [Visitor64.visitI128, ← ite_or]
  apply check_eq_ok
  omega

/-! ## Doubles -/

/-- `MAX as f64`. -/
def IntType.top : IntType → ℤ
  | i32 => 2 ^ 31 - 1
  | u32 => 2 ^ 32 - 1
  | i64 => 2 ^ 63
  | u64 => 2 ^ 64

theorem signedUnits_min (t : IntType) :
    (F64.ofInt t.min).isFinite = true ∧ (F64.ofInt t.min).signedUnits = t.min * 2 ^ 1074 := by
  cases t <;> decide +kernel

theorem signedUnits_max (t : IntType) :
    (F64.ofInt t.max).isFinite = true ∧ (F64.ofInt t.max).signedUnits = t.top * 2 ^ 1074 := by
  cases t <;> decide +kernel

/-- The range checks of a double. -/
theorem inRange_iff (t : IntType) {x : F64} (hnan : x.isNan = false) :
    ¬(x.lt (F64.ofInt t.min) = true ∨ (F64.ofInt t.max).lt x = true) ↔
      t.min * 2 ^ 1074 ≤ x.signedUnits ∧ x.signedUnits ≤ t.top * 2 ^ 1074 := by
  obtain ⟨hmin, hminUnits⟩ := signedUnits_min t
  obtain ⟨hmax, hmaxUnits⟩ := signedUnits_max t
  rw [F64.lt_iff hnan (F64.isNan_of_isFinite hmin), F64.lt_iff (F64.isNan_of_isFinite hmax) hnan,
    hminUnits, hmaxUnits, not_or, not_lt, not_lt]

/-- A double that is too large to be finite is outside of every range. -/
theorem isFinite_of_inRange {t : IntType} {x : F64} (hnan : x.isNan = false)
    (hmin : t.min * 2 ^ 1074 ≤ x.signedUnits) (hmax : x.signedUnits ≤ t.top * 2 ^ 1074) :
    x.isFinite = true := by
  by_contra hinfinite
  have hmagnitude : x.magnitude = 0x7ff0000000000000 := by
    simp only [F64.isFinite, decide_eq_true_eq] at hinfinite
    simp only [F64.isNan, decide_eq_false_iff_not] at hnan
    omega
  have hunits : (x.units : ℤ) = 2 ^ 1024 * 2 ^ 1074 := by
    rw [F64.units_eq, hmagnitude]
    decide +kernel
  have hlarge : (t.top : ℤ) * 2 ^ 1074 < 2 ^ 1024 * 2 ^ 1074 := by
    cases t <;> decide +kernel
  have hsmall : -(2 ^ 1024 * 2 ^ 1074) < t.min * 2 ^ 1074 := by
    cases t <;> decide +kernel
  rw [F64.signedUnits, hunits] at hmin hmax
  split_ifs at hmin hmax <;> omega

/-- What a double that is in range is converted to. -/
theorem ofFloat_of_whole {t : IntType} {x : F64} {k : ℤ} (h : x.isFinite = true)
    (hk : x.signedUnits = k * 2 ^ 1074) (hmin : t.min ≤ k) : (t.ofFloat x : ℤ) = min k t.max := by
  have hbounds := t.bounds
  simp only [IntType.ofFloat]
  rw [F64.truncAs_of_whole h hk]
  omega

/-- A finite double, where the checks see a fraction exactly when there is one. -/
theorem convert_eq_ok {t : IntType} {x : F64} (hnan : x.isNan = false) {e : VisitError}
    {fractional : Prop} [Decidable fractional]
    (h : x.isFinite = true → (fractional ↔ x.units % 2 ^ 1074 ≠ 0)) (n : t.Value) :
    (if x.lt (F64.ofInt t.min) then .error e
      else if (F64.ofInt t.max).lt x then .error e
      else if fractional then .error e
      else .ok (t.ofFloat x) : Except VisitError t.Value) = .ok n ↔
      x.isFinite = true ∧ ∃ k : ℤ, x.toRat = k ∧ t.min ≤ k ∧ k ≤ t.top ∧ (n : ℤ) = min k t.max := by
  have hscale : (0 : ℤ) < 2 ^ 1074 := by positivity
  have hrange := inRange_iff t hnan
  rw [← ite_or]
  constructor
  · intro hok
    split_ifs at hok with hout hfraction
    obtain ⟨hmin, hmax⟩ := hrange.mp hout
    have hfinite := isFinite_of_inRange hnan hmin hmax
    obtain ⟨k, hk⟩ := (F64.units_mod_eq_zero_iff x).mp (not_not.mp ((h hfinite).not.mp hfraction))
    rw [hk] at hmin hmax
    cases hok
    have hlow := le_of_mul_le_mul_right hmin hscale
    exact ⟨hfinite, k, (x.toRat_eq_iff k).mpr hk, hlow, le_of_mul_le_mul_right hmax hscale,
      ofFloat_of_whole hfinite hk hlow⟩
  · rintro ⟨hfinite, k, hk, hmin, hmax, hn⟩
    rw [F64.toRat_eq_iff] at hk
    have hwhole := (F64.units_mod_eq_zero_iff x).mpr ⟨k, hk⟩
    rw [if_neg (hrange.mpr _), if_neg ((h hfinite).not.mpr (not_not.mpr hwhole)), Except.ok.injEq,
      Subtype.ext_iff, ofFloat_of_whole hfinite hk hmin, hn]
    rw [hk]
    exact ⟨mul_le_mul_of_nonneg_right hmin hscale.le, mul_le_mul_of_nonneg_right hmax hscale.le⟩

/-- In a finite double both families see a fraction when there is one. -/
theorem fract_checks {x : F64} (h : x.isFinite = true) :
    ((F64.ofNat 0).lt x.fract.abs = true ↔ x.units % 2 ^ 1074 ≠ 0) ∧
      ((!x.fract.eq (F64.ofNat 0)) = true ↔ x.units % 2 ^ 1074 ≠ 0) := by
  obtain ⟨hfinite, hfract⟩ := F64.fract_spec h
  have hnan := F64.isNan_of_isFinite hfinite
  rw [F64.zero_lt_abs_iff hnan, Bool.not_eq_true', ← Bool.not_eq_true, F64.eq_zero_iff hnan,
    ← hfract, Nat.pos_iff_ne_zero]
  exact ⟨Iff.rfl, Iff.rfl⟩

theorem visitF64_32_eq_ok (t : IntType) (msg : String) {x : F64} (hnan : x.isNan = false)
    (n : t.Value) : Visitor32.visitF64 t msg x = .ok n ↔
      x.isFinite = true ∧ ∃ k : ℤ, x.toRat = k ∧ t.min ≤ k ∧ k ≤ t.top ∧ (n : ℤ) = min k t.max :=
  convert_eq_ok hnan (fun hfinite => (fract_checks hfinite).1) n

/-- The fraction of a NaN is not zero, but not larger than zero either. -/
theorem visitF64_nan (t : IntType) (msg : String) {x : F64} (h : x.isNan = true) :
    Visitor64.visitF64 t msg x = .error (.invalidValue (.float x) msg) ∧
      Visitor32.visitF64 t msg x = .ok (t.ofFloat x) := by
  have hfract : x.fract = F64.nan := by
    rw [F64.fract, h]
    rfl
  have hlower := (F64.lt_of_isNan h (F64.ofInt t.min)).1
  have hupper := (F64.lt_of_isNan h (F64.ofInt t.max)).2
  constructor
  · rw [Visitor64.visitF64, hlower, hupper, hfract]
    rfl
  · rw [Visitor32.visitF64, hlower, hupper, hfract]
    rfl

theorem visitF64_64_eq_ok (t : IntType) (msg : String) (x : F64) (n : t.Value) :
    Visitor64.visitF64 t msg x = .ok n ↔
      x.isFinite = true ∧ ∃ k : ℤ, x.toRat = k ∧ t.min ≤ k ∧ k ≤ t.top ∧ (n : ℤ) = min k t.max := by
  cases hnan : x.isNan with
  | false => exact convert_eq_ok hnan (fun hfinite => (fract_checks hfinite).2) n
  | true =>
      rw [(visitF64_nan t msg hnan).1]
      constructor
      · intro hok
        cases hok
      · rintro ⟨hfinite, -⟩
        rw [F64.isNan_of_isFinite hfinite] at hnan
        cases hnan

/-- The 64-bit types. -/
def IntType.isWide : IntType → Bool
  | i32 | u32 => false
  | i64 | u64 => true

/-- A double and the integer it is accepted as: its value, or the largest integer where a wide type
has its largest integer rounded up to this double. -/
def IntType.Accepts (t : IntType) (x : F64) (n : t.Value) : Prop :=
  x.isFinite = true ∧
    (x.toRat = (n : ℤ) ∨ t.isWide = true ∧ (n : ℤ) = t.max ∧ x.toRat = (t.max + 1 : ℤ))

theorem accepts_iff (t : IntType) (x : F64) (n : t.Value) :
    (x.isFinite = true ∧ ∃ k : ℤ, x.toRat = k ∧ t.min ≤ k ∧ k ≤ t.top ∧ (n : ℤ) = min k t.max) ↔
      t.Accepts x n := by
  have htop : t.top = t.max ∨ t.isWide = true ∧ t.top = t.max + 1 := by
    cases t <;> decide
  have hwide : t.isWide = true → t.top = t.max + 1 := by
    cases t <;> decide
  have hbounds := t.bounds
  obtain ⟨hmin, hmax⟩ := n.property
  apply and_congr_right
  intro _
  constructor
  · rintro ⟨k, hk, hlow, hhigh, hn⟩
    by_cases hin : k ≤ t.max
    · left
      rw [hk, hn, min_eq_left hin]
    · right
      have hup := htop.resolve_left (by omega)
      exact ⟨hup.1, by omega, by rw [hk, show k = t.max + 1 by omega]⟩
  · rintro (hexact | ⟨hw, hn, hup⟩)
    · exact ⟨n, hexact, hmin, by omega, by omega⟩
    · exact ⟨t.max + 1, hup, by omega, by rw [hwide hw], by omega⟩

theorem visitF64_eq_ok (t : IntType) {x : F64} (hnan : t.isWide = false → x.isNan = false)
    (n : t.Value) : (visitor t).visitF64 x = .ok n ↔ t.Accepts x n := by
  rw [← accepts_iff]
  cases t with
  | i32 => exact visitF64_32_eq_ok _ _ (hnan rfl) n
  | u32 => exact visitF64_32_eq_ok _ _ (hnan rfl) n
  | i64 => exact visitF64_64_eq_ok _ _ x n
  | u64 => exact visitF64_64_eq_ok _ _ x n

/-! ## Everything that is handed over -/

/-- What is read as an integer. -/
inductive ReadsInteger (t : IntType) : Handed → ℤ → Prop
  | i64 (value : Int64) : ReadsInteger t (.i64 value) value.toInt
  | u64 (value : UInt64) : ReadsInteger t (.u64 value) value.toNat
  | str {text : List Char} {k : ℤ} (hwide : t.isWide = true)
      (htext : Text.parseInt 128 text = .ok k) : ReadsInteger t (.str text) k

/-- What is read as a double. -/
inductive ReadsDouble (t : IntType) : Handed → F64 → Prop
  | f64 (x : F64) : ReadsDouble t (.f64 x) x
  | str {text : List Char} {x : F64}
      (hnot : t.isWide = true → ∀ k, Text.parseInt 128 text ≠ .ok k)
      (htext : F64.parse text = .ok x) : ReadsDouble t (.str text) x

theorem visitStr_32 (t : IntType) (msg : String) (text : List Char) (n : t.Value) :
    Visitor32.visitStr t msg text = .ok n ↔
      ∃ x, F64.parse text = .ok x ∧ Visitor32.visitF64 t msg x = .ok n := by
  simp only [Visitor32.visitStr]
  cases hparse : F64.parse text with
  | error e => simp
  | ok x => simp

theorem visitStr_64 (t : IntType) (msg : String) (text : List Char) (n : t.Value) :
    Visitor64.visitStr t msg text = .ok n ↔
      Text.parseInt 128 text = .ok (n : ℤ) ∨
        (∀ k, Text.parseInt 128 text ≠ .ok k) ∧
          ∃ x, F64.parse text = .ok x ∧ Visitor64.visitF64 t msg x = .ok n := by
  simp only [Visitor64.visitStr]
  cases hint : Text.parseInt 128 text with
  | ok k =>
      simp only [visitI128_eq_ok, Except.ok.injEq]
      constructor
      · intro hn
        exact .inl hn.symm
      · rintro (hk | ⟨hnot, -⟩)
        · exact hk.symm
        · exact absurd rfl (hnot k)
  | error e =>
      cases hparse : F64.parse text with
      | error e => simp
      | ok x => simp

theorem readsInteger_i64 {t : IntType} {value : Int64} {k : ℤ} :
    ReadsInteger t (.i64 value) k ↔ k = value.toInt := by
  constructor
  · rintro ⟨⟩
    rfl
  · rintro rfl
    exact .i64 value

theorem readsInteger_u64 {t : IntType} {value : UInt64} {k : ℤ} :
    ReadsInteger t (.u64 value) k ↔ k = value.toNat := by
  constructor
  · rintro ⟨⟩
    rfl
  · rintro rfl
    exact .u64 value

theorem readsInteger_str {t : IntType} {text : List Char} {k : ℤ} :
    ReadsInteger t (.str text) k ↔ t.isWide = true ∧ Text.parseInt 128 text = .ok k := by
  constructor
  · rintro ⟨⟩
    exact ⟨‹_›, ‹_›⟩
  · rintro ⟨hwide, htext⟩
    exact .str hwide htext

theorem readsDouble_str {t : IntType} {text : List Char} {x : F64} :
    ReadsDouble t (.str text) x ↔
      (t.isWide = true → ∀ k, Text.parseInt 128 text ≠ .ok k) ∧ F64.parse text = .ok x := by
  constructor
  · rintro ⟨⟩
    exact ⟨‹_›, ‹_›⟩
  · rintro ⟨hnot, htext⟩
    exact .str hnot htext

/-- A text that is not read as an integer, in the type at hand. -/
theorem exists_readsDouble_iff {t : IntType} {text : List Char}
    (hnan : t.isWide = false → ∀ x, ReadsDouble t (.str text) x → x.isNan = false) (n : t.Value)
    (hnot : t.isWide = true → ∀ k, Text.parseInt 128 text ≠ .ok k) :
    (∃ x, F64.parse text = .ok x ∧ (visitor t).visitF64 x = .ok n) ↔
      ∃ x, ReadsDouble t (.str text) x ∧ t.Accepts x n := by
  apply exists_congr
  intro x
  rw [readsDouble_str, and_iff_right hnot]
  apply and_congr_right
  intro htext
  exact visitF64_eq_ok t (fun hnarrow => hnan hnarrow x (.str hnot htext)) n

/-- At 32 bits every text is read as a double. -/
theorem reads_narrow {t : IntType} (h : t.isWide = false) {text : List Char}
    (hnan : t.isWide = false → ∀ x, ReadsDouble t (.str text) x → x.isNan = false) (n : t.Value) :
    (∃ x, F64.parse text = .ok x ∧ (visitor t).visitF64 x = .ok n) ↔
      ReadsInteger t (.str text) n ∨ ∃ x, ReadsDouble t (.str text) x ∧ t.Accepts x n := by
  have hnone : ¬ReadsInteger t (.str text) n := by
    rw [readsInteger_str, h]
    rintro ⟨⟨⟩, -⟩
  rw [or_iff_right hnone]
  exact exists_readsDouble_iff hnan n (by simp [h])

/-- At 64 bits a text is read as an integer where that is possible. -/
theorem reads_wide {t : IntType} (h : t.isWide = true) {text : List Char} (n : t.Value) :
    Text.parseInt 128 text = .ok (n : ℤ) ∨ (∀ k, Text.parseInt 128 text ≠ .ok k) ∧
        (∃ x, F64.parse text = .ok x ∧ (visitor t).visitF64 x = .ok n) ↔
      ReadsInteger t (.str text) n ∨ ∃ x, ReadsDouble t (.str text) x ∧ t.Accepts x n := by
  have hnan : t.isWide = false → ∀ x, ReadsDouble t (.str text) x → x.isNan = false := by
    rw [h]
    rintro ⟨⟩
  rw [readsInteger_str, and_iff_right h]
  apply or_congr_right
  constructor
  · rintro ⟨hnot, hread⟩
    exact (exists_readsDouble_iff hnan n (fun _ => hnot)).mp hread
  · rintro ⟨x, hx, haccepts⟩
    have hnot := (readsDouble_str.mp hx).1
    exact ⟨hnot h, (exists_readsDouble_iff hnan n hnot).mpr ⟨x, hx, haccepts⟩⟩

theorem visitStr_eq_ok {t : IntType} {text : List Char}
    (hnan : t.isWide = false → ∀ x, ReadsDouble t (.str text) x → x.isNan = false) (n : t.Value) :
    (visitor t).visitStr text = .ok n ↔
      ReadsInteger t (.str text) n ∨ ∃ x, ReadsDouble t (.str text) x ∧ t.Accepts x n := by
  cases t with
  | i32 => exact (visitStr_32 _ _ text n).trans (reads_narrow rfl hnan n)
  | u32 => exact (visitStr_32 _ _ text n).trans (reads_narrow rfl hnan n)
  | i64 => exact (visitStr_64 _ _ text n).trans (reads_wide rfl n)
  | u64 => exact (visitStr_64 _ _ text n).trans (reads_wide rfl n)

/-- The results of a visitor, by what is read. -/
theorem deserializeAs_eq_ok {t : IntType} {input : Handed}
    (hnan : t.isWide = false → ∀ x, ReadsDouble t input x → x.isNan = false) (n : t.Value) :
    deserializeAs t input = .ok n ↔
      ReadsInteger t input n ∨ ∃ x, ReadsDouble t input x ∧ t.Accepts x n := by
  cases input with
  | i64 value =>
      have hnone : ¬∃ x, ReadsDouble t (.i64 value) x ∧ t.Accepts x n := by
        rintro ⟨x, ⟨⟩, -⟩
      rw [readsInteger_i64, or_iff_left hnone]
      exact visitI64_eq_ok t value n
  | u64 value =>
      have hnone : ¬∃ x, ReadsDouble t (.u64 value) x ∧ t.Accepts x n := by
        rintro ⟨x, ⟨⟩, -⟩
      rw [readsInteger_u64, or_iff_left hnone]
      exact visitU64_eq_ok t value n
  | f64 value =>
      have hnone : ¬ReadsInteger t (.f64 value) n := by
        rintro ⟨⟩
      rw [or_iff_right hnone, deserializeAs,
        visitF64_eq_ok t (fun hnarrow => hnan hnarrow value (.f64 value)) n]
      constructor
      · intro haccepts
        exact ⟨value, .f64 value, haccepts⟩
      · rintro ⟨x, ⟨⟩, haccepts⟩
        exact haccepts
  | str text => exact visitStr_eq_ok hnan n

theorem serializeAs_eq_number {t : IntType} {n : t.Value} {m : ℤ}
    (h : serializeAs t n = .number m) : (n : ℤ) = m := by
  cases t with
  | i32 => exact Emitted.number.inj h
  | u32 => exact Emitted.number.inj h
  | i64 => cases h
  | u64 => cases h

theorem serializeAs_eq_str {t : IntType} {n : t.Value} {text : List Char}
    (h : serializeAs t n = .str text) : t.isWide = true ∧ text = Text.int n := by
  cases t with
  | i32 => cases h
  | u32 => cases h
  | i64 => exact ⟨rfl, (Emitted.str.inj h).symm⟩
  | u64 => exact ⟨rfl, (Emitted.str.inj h).symm⟩

/-- A value that was emitted is read back. -/
theorem deserializeAs_serializeAs {t : IntType} {n : t.Value} {input : Handed}
    (h : HandedBack (serializeAs t n) input) : deserializeAs t input = .ok n := by
  generalize hemitted : serializeAs t n = emitted at h
  cases h with
  | i64 value => exact (visitI64_eq_ok t value n).mpr (serializeAs_eq_number hemitted)
  | u64 value => exact (visitU64_eq_ok t value n).mpr (serializeAs_eq_number hemitted)
  | str text =>
      obtain ⟨hwide, rfl⟩ := serializeAs_eq_str hemitted
      have hfits : Text.Fits 128 n := by
        have hbounds := n.property
        cases t <;> simp only [IntType.min, IntType.max] at hbounds <;> omega
      refine (visitStr_eq_ok ?_ n).mpr (.inl (.str hwide (Text.parseInt_int hfits)))
      rw [hwide]
      rintro ⟨⟩

/-- Whatever is handed over, an integer or the text of one is accepted exactly, and a double as the
integer it stands for; only the largest integer of a 64-bit type also stands for the double that it
is rounded to. Other texts are read as a double nearest to what they denote. Not a number at 32 bits
is left out. -/
theorem altered_only_by_rounding (t : IntType) (input : Handed) (n : t.Value)
    (hnan : t.isWide = false → ∀ x, ReadsDouble t input x → x.isNan = false) :
    (deserializeAs t input = .ok n ↔
      ReadsInteger t input n ∨ ∃ x, ReadsDouble t input x ∧ x.isFinite = true ∧
        (x.toRat = (n : ℤ) ∨
          t.isWide = true ∧ (n : ℤ) = t.max ∧ x.toRat = (t.max + 1 : ℤ))) ∧
    (∀ text x, ReadsDouble t (.str text) x → x.isFinite = true →
      ∃ q, F64.Denotes text q ∧ F64.IsNearest q x) ∧
    (∀ text q, F64.Denotes text q →
      ∃ x, F64.parse text = .ok x ∧ (x.isFinite = true → F64.IsNearest q x)) ∧
    (HandedBack (serializeAs t n) input → deserializeAs t input = .ok n) := by
  refine ⟨deserializeAs_eq_ok hnan n, ?_, ?_, deserializeAs_serializeAs⟩
  · intro text x hread hfinite
    exact F64.parse_sound (readsDouble_str.mp hread).2 hfinite
  · intro text q hdenotes
    exact F64.parse_complete hdenotes

/-- The largest `i64` is emitted as a text, and the text is read back. -/
theorem altered_only_by_rounding_largest :
    deserializeAs .i64 (.str (Text.int (2 ^ 63 - 1))) = .ok ⟨2 ^ 63 - 1, by decide⟩ := by
  refine (altered_only_by_rounding .i64 (.str (Text.int (2 ^ 63 - 1))) ⟨2 ^ 63 - 1, by decide⟩
    ?_).2.2.2 (.str _)
  rintro ⟨⟩

/-- The double above the largest `i64` is accepted, as another number. -/
theorem double_above_accepted :
    deserializeAs .i64 (.f64 ⟨0x43e0000000000000⟩) = .ok ⟨2 ^ 63 - 1, by decide⟩ ∧
      F64.toRat ⟨0x43e0000000000000⟩ = (2 ^ 63 : ℤ) ∧
      F64.toRat ⟨0x43e0000000000000⟩ ≠ (2 ^ 63 - 1 : ℤ) := by
  have hvalue : F64.toRat ⟨0x43e0000000000000⟩ = (2 ^ 63 : ℤ) := by
    rw [F64.toRat_eq_iff]
    decide +kernel
  refine ⟨by decide +kernel, hvalue, ?_⟩
  rw [hvalue, Ne, Int.cast_inj]
  decide

end GoogleCloudRust.Wkt

import GoogleCloudRust.Library.Signed
import GoogleCloudRust.Model.Timestamp
import GoogleCloudRust.Verification.Duration.Texts

/-! # Normalising constructors

`clamp` gives the instant that its arguments add up to. An instant out of range is given a
whole number of seconds, so the last fraction of a second is ordered after it. -/

namespace GoogleCloudRust.Wkt

/-- The instant that the arguments of `clamp` stand for. -/
def total (seconds : Int64) (nanos : Int32) : ℤ := seconds.toInt * 10 ^ 9 + nanos.toInt

section Contract

variable {V E : Type} (new : ℤ → ℤ → Except E V) (clamp : Int64 → Int32 → Option (ℤ × ℤ))
  (nanoseconds : V → ℤ) (lo hi : ℤ) (low high : V)

/-- The arithmetic does not overflow, and the fields are ones that `new` accepts. -/
def Builds (seconds : Int64) (nanos : Int32) (v : V) : Prop :=
  ∃ fields, clamp seconds nanos = some fields ∧ new fields.1 fields.2 = .ok v

/-- Sums between the bounds are exact, and others are given `low` or `high`. -/
structure Normalizes [LE V] : Prop where
  representable : ∀ n, (∃ v, nanoseconds v = n) ↔ lo ≤ n ∧ n ≤ hi
  accepted : ∀ seconds nanos, ∃ v, Builds new clamp seconds nanos v
  exact : ∀ {seconds nanos v}, Builds new clamp seconds nanos v →
    lo ≤ total seconds nanos → total seconds nanos ≤ hi → nanoseconds v = total seconds nanos
  above : ∀ {seconds nanos v}, Builds new clamp seconds nanos v →
    hi < total seconds nanos → v = high
  below : ∀ {seconds nanos v}, Builds new clamp seconds nanos v →
    total seconds nanos < lo → v = low
  closest_iff : ∀ {seconds nanos v}, Builds new clamp seconds nanos v →
    (Closest nanoseconds (total seconds nanos) v ↔
      (hi < total seconds nanos → nanoseconds high = hi) ∧
      (total seconds nanos < lo → nanoseconds low = lo))
  idempotent : ∀ {seconds nanos v}, new seconds.toInt nanos.toInt = .ok v →
    clamp seconds nanos = some (seconds.toInt, nanos.toInt)
  ordered : ∀ {seconds nanos v seconds' nanos' v'}, Builds new clamp seconds nanos v →
    Builds new clamp seconds' nanos' v' → total seconds nanos < total seconds' nanos' →
    (v ≤ v' ↔
      ¬ (nanoseconds high < total seconds nanos ∧ total seconds nanos ≤ hi ∧
        hi < total seconds' nanos') ∧
      ¬ (total seconds nanos < lo ∧ lo ≤ total seconds' nanos' ∧
        total seconds' nanos' < nanoseconds low))

variable {new clamp nanoseconds lo hi low high}

theorem Normalizes.of_saturation [LE V] (fields : V → ℤ × ℤ)
    (h : Saturation nanoseconds lo hi low high)
    (hle : ∀ v w, v ≤ w ↔ nanoseconds v ≤ nanoseconds w)
    (hfields : ∀ v, nanoseconds v = (fields v).1 * 10 ^ 9 + (fields v).2)
    (hnew : ∀ {seconds nanos v}, new seconds nanos = .ok v ↔ fields v = (seconds, nanos))
    (hclamp : ∀ seconds nanos, ∃ v, clamp seconds nanos = some (fields v) ∧
      Saturates nanoseconds lo hi low high (total seconds nanos) v) :
    Normalizes new clamp nanoseconds lo hi low high := by
  have hbuilds {seconds nanos v} (hv : Builds new clamp seconds nanos v) :
      Saturates nanoseconds lo hi low high (total seconds nanos) v := by
    obtain ⟨pair, hpair, hok⟩ := hv
    obtain ⟨w, hw, hsaturates⟩ := hclamp seconds nanos
    rw [hpair, Option.some.injEq] at hw
    subst hw
    have heq : v = w := by
      have hv := hnew.mp hok
      exact h.injective (by rw [hfields, hfields, hv])
    exact heq ▸ hsaturates
  constructor
  · intro n
    constructor
    · rintro ⟨v, rfl⟩
      exact ⟨h.lo_le v, h.le_hi v⟩
    · rintro ⟨hlo, hhi⟩
      exact h.exists_value hlo hhi
  · intro seconds nanos
    obtain ⟨v, hv, -⟩ := hclamp seconds nanos
    exact ⟨v, fields v, hv, hnew.mpr rfl⟩
  · intro seconds nanos v hv hlo hhi
    obtain ⟨w, hw⟩ := h.exists_value hlo hhi
    have hsaturates := hbuilds hv
    rw [← hw] at hsaturates ⊢
    rw [h.eq_of_value hsaturates]
  · intro seconds nanos v hv habove
    exact h.eq_high (hbuilds hv) habove
  · intro seconds nanos v hv hbelow
    exact h.eq_low (hbuilds hv) hbelow
  · intro seconds nanos v hv
    exact h.closest_iff (hbuilds hv)
  · intro seconds nanos v hv
    obtain ⟨w, hw, hsaturates⟩ := hclamp seconds nanos
    have hfieldsv := hnew.mp hv
    have htotal : total seconds nanos = nanoseconds v := by rw [hfields, hfieldsv, total]
    rw [htotal] at hsaturates
    rw [hw, h.eq_of_value hsaturates, hfieldsv]
  · intro seconds nanos v seconds' nanos' v' hv hv' hlt
    rw [hle]
    exact h.value_le_iff (hbuilds hv) (hbuilds hv') hlt

end Contract

/-! ## Durations -/

namespace Duration

def limit : ℤ := maxSeconds * 10 ^ 9 + maxNanos

/-- The last duration of a whole number of seconds. -/
def longest : Duration := ⟨maxSeconds, 0, by decide, by decide, by decide⟩

def shortest : Duration := ⟨minSeconds, 0, by decide, by decide, by decide⟩

def last : Duration := ⟨maxSeconds, maxNanos, by decide, by decide, by decide⟩

theorem limit_eq : limit = 315576000000999999999 := rfl

theorem le_iff (d e : Duration) : d ≤ e ↔ d.nanoseconds ≤ e.nanoseconds := by
  have hd := d.nanos_mem
  have he := e.nanos_mem
  have hdsigns := d.signs
  have hesigns := e.signs
  rw [minNanos_eq, maxNanos_eq] at hd he
  change d.seconds < e.seconds ∨ d.seconds = e.seconds ∧ d.nanos ≤ e.nanos ↔ _
  simp only [nanoseconds]
  omega

/-- Truncating the quotient leaves a count of whole seconds and the sign of the rest. -/
theorem exists_nanoseconds (n : ℤ) (hlo : -limit ≤ n) (hhi : n ≤ limit) :
    ∃ d : Duration, d.nanoseconds = n := by
  rw [limit_eq] at hlo hhi
  by_cases hn : 0 ≤ n
  · refine ⟨⟨n / 10 ^ 9, n % 10 ^ 9, ?_, ?_, ?_⟩, ?_⟩
    · rw [minSeconds_eq, maxSeconds_eq]
      omega
    · rw [minNanos_eq, maxNanos_eq]
      omega
    · omega
    · simp only [nanoseconds]
      omega
  · refine ⟨⟨-(-n / 10 ^ 9), -(-n % 10 ^ 9), ?_, ?_, ?_⟩, ?_⟩
    · rw [minSeconds_eq, maxSeconds_eq]
      omega
    · rw [minNanos_eq, maxNanos_eq]
      omega
    · omega
    · simp only [nanoseconds]
      omega

theorem nanoseconds_le (d : Duration) : -limit ≤ d.nanoseconds ∧ d.nanoseconds ≤ limit := by
  have hseconds := d.seconds_mem
  have hnanos := d.nanos_mem
  rw [minSeconds_eq, maxSeconds_eq] at hseconds
  rw [minNanos_eq, maxNanos_eq] at hnanos
  rw [limit_eq, nanoseconds]
  omega

theorem saturation : Saturation nanoseconds (-limit) limit shortest longest where
  injective := nanoseconds_injective
  range_eq := by
    ext n
    constructor
    · rintro ⟨d, rfl⟩
      exact d.nanoseconds_le
    · rintro ⟨hlo, hhi⟩
      exact exists_nanoseconds n hlo hhi
  low_le_high := by decide

/-- The last checks of `clamp`, on parts whose signs agree. -/
theorem settle {seconds nanos n : ℤ} (hnanos : -10 ^ 9 < nanos ∧ nanos < 10 ^ 9)
    (hsigns : ¬ ((seconds ≠ 0 ∧ nanos ≠ 0) ∧ ¬ (seconds < 0 ↔ nanos < 0)))
    (hn : seconds * 10 ^ 9 + nanos = n ∨ (maxSeconds < seconds ∧ limit < n) ∨
      (seconds < minSeconds ∧ n < -limit)) :
    ∃ d : Duration,
      (if maxSeconds < seconds then pure (maxSeconds, 0)
        else if seconds < minSeconds then pure (minSeconds, 0)
        else pure (seconds, nanos) : Option (ℤ × ℤ)) = some (d.seconds, d.nanos) ∧
      Saturates nanoseconds (-limit) limit shortest longest n d := by
  rw [maxSeconds_eq, minSeconds_eq, limit_eq] at hn
  by_cases habove : maxSeconds < seconds
  · rw [if_pos habove]
    rw [maxSeconds_eq] at habove
    refine ⟨longest, rfl, .above ?_⟩
    rw [limit_eq]
    omega
  · rw [if_neg habove]
    rw [maxSeconds_eq] at habove
    by_cases hbelow : seconds < minSeconds
    · rw [if_pos hbelow]
      rw [minSeconds_eq] at hbelow
      refine ⟨shortest, rfl, .below ?_⟩
      rw [limit_eq]
      omega
    · rw [if_neg hbelow]
      rw [minSeconds_eq] at hbelow
      have hseconds : minSeconds ≤ seconds ∧ seconds ≤ maxSeconds := by
        rw [minSeconds_eq, maxSeconds_eq]
        omega
      have hmem : minNanos ≤ nanos ∧ nanos ≤ maxNanos := by
        rw [minNanos_eq, maxNanos_eq]
        omega
      refine ⟨⟨seconds, nanos, hseconds, hmem, hsigns⟩, rfl, .exact ?_⟩
      simp only [nanoseconds]
      omega

theorem clamp_saturates (seconds : Int64) (nanos : Int32) :
    ∃ d : Duration, clamp seconds nanos = some (d.seconds, d.nanos) ∧
      Saturates nanoseconds (-limit) limit shortest longest (total seconds nanos) d := by
  have hdivision := Int.mul_tdiv_add_tmod nanos.toInt ns
  have hupper := Int.tmod_lt_of_pos nanos.toInt (show 0 < ns by decide)
  have hlower := Int.lt_tmod_of_pos nanos.toInt (show 0 < ns by decide)
  have hmin := Int64.le_toInt seconds
  have hmax := Int64.toInt_lt seconds
  have hcarried := Signed.saturate_cases 64 (seconds.toInt + nanos.toInt.tdiv ns)
  rw [clamp, total]
  generalize nanos.toInt.tdiv ns = carry at *
  generalize nanos.toInt.tmod ns = rest at *
  generalize Signed.saturate 64 (seconds.toInt + carry) = carried at *
  rw [show ns = 10 ^ 9 from rfl] at *
  by_cases hborrow : 0 < carried ∧ rest < 0
  · have hone := Signed.saturate_cases 64 (carried - 1)
    have hfits : Signed.checked 32 (rest + 10 ^ 9) = some (rest + 10 ^ 9) :=
      Signed.checked_eq_some (by omega) (by omega)
    simp only [if_pos hborrow, hfits]
    apply settle
    · omega
    · omega
    · rw [maxSeconds_eq, minSeconds_eq, limit_eq]
      omega
  · by_cases hcarry : carried < 0 ∧ 0 < rest
    · have hone := Signed.saturate_cases 64 (carried + 1)
      have hfits : Signed.checked 32 (10 ^ 9 - rest) = some (10 ^ 9 - rest) :=
        Signed.checked_eq_some (by omega) (by omega)
      have hnegated : Signed.checked 32 (-(10 ^ 9 - rest)) = some (-(10 ^ 9 - rest)) :=
        Signed.checked_eq_some (by omega) (by omega)
      simp only [if_neg hborrow, if_pos hcarry, hfits, Option.bind_eq_bind, Option.bind_some,
        hnegated]
      apply settle
      · omega
      · omega
      · rw [maxSeconds_eq, minSeconds_eq, limit_eq]
        omega
    · simp only [if_neg hborrow, if_neg hcarry]
      apply settle
      · omega
      · omega
      · rw [maxSeconds_eq, minSeconds_eq, limit_eq]
        omega

theorem normalizes : Normalizes new clamp nanoseconds (-limit) limit shortest longest := by
  apply Normalizes.of_saturation (fun d => (d.seconds, d.nanos)) saturation le_iff
  · exact fun d => rfl
  · intro seconds nanos d
    rw [new_eq_ok, Prod.mk.injEq]
  · exact clamp_saturates

end Duration

/-! ## Timestamps -/

namespace Timestamp

def nanoseconds (timestamp : Timestamp) : ℤ := timestamp.seconds * 10 ^ 9 + timestamp.nanos

def earliest : Timestamp := ⟨minSeconds, 0, by decide, by decide⟩

/-- The last timestamp of a whole second. -/
def latest : Timestamp := ⟨maxSeconds, 0, by decide, by decide⟩

def last : Timestamp := ⟨maxSeconds, maxNanos, by decide, by decide⟩

def lower : ℤ := minSeconds * 10 ^ 9

def upper : ℤ := maxSeconds * 10 ^ 9 + maxNanos

theorem minSeconds_eq : minSeconds = -62135596800 := rfl

theorem maxSeconds_eq : maxSeconds = 253402300799 := rfl

theorem minNanos_eq : minNanos = 0 := rfl

theorem maxNanos_eq : maxNanos = 999999999 := rfl

theorem lower_eq : lower = -62135596800000000000 := rfl

theorem upper_eq : upper = 253402300799999999999 := rfl

theorem nanos_bounds (t : Timestamp) : 0 ≤ t.nanos ∧ t.nanos < 10 ^ 9 := by
  have hnanos := t.nanos_mem
  rw [minNanos_eq, maxNanos_eq] at hnanos
  omega

theorem nanoseconds_injective : Function.Injective nanoseconds := by
  intro s t heq
  have hs := s.nanos_bounds
  have ht := t.nanos_bounds
  simp only [nanoseconds] at heq
  have hseconds : s.seconds = t.seconds := by omega
  have hnanos : s.nanos = t.nanos := by omega
  cases s
  cases t
  congr

theorem new_eq_ok {seconds nanos : ℤ} {timestamp : Timestamp} :
    new seconds nanos = .ok timestamp ↔
      timestamp.seconds = seconds ∧ timestamp.nanos = nanos := by
  constructor
  · intro h
    rw [new] at h
    split at h
    · split at h
      · cases h
        exact ⟨rfl, rfl⟩
      · cases h
    · cases h
  · rintro ⟨rfl, rfl⟩
    rw [new, dif_pos timestamp.seconds_mem, dif_pos timestamp.nanos_mem]

theorem le_iff (s t : Timestamp) : s ≤ t ↔ s.nanoseconds ≤ t.nanoseconds := by
  have hs := s.nanos_bounds
  have ht := t.nanos_bounds
  change s.seconds < t.seconds ∨ s.seconds = t.seconds ∧ s.nanos ≤ t.nanos ↔ _
  simp only [nanoseconds]
  omega

/-- Seconds and nanoseconds are the quotient and the remainder of the instant. -/
theorem exists_nanoseconds_iff (n : ℤ) :
    (∃ t : Timestamp, t.nanoseconds = n) ↔ lower ≤ n ∧ n ≤ upper := by
  rw [lower_eq, upper_eq]
  constructor
  · rintro ⟨t, rfl⟩
    have hnanos := t.nanos_bounds
    have hseconds := t.seconds_mem
    rw [minSeconds_eq, maxSeconds_eq] at hseconds
    rw [nanoseconds]
    omega
  · intro h
    refine ⟨⟨n / 10 ^ 9, n % 10 ^ 9, ?_, ?_⟩, ?_⟩
    · rw [minSeconds_eq, maxSeconds_eq]
      omega
    · rw [minNanos_eq, maxNanos_eq]
      omega
    · simp only [nanoseconds]
      omega

theorem saturation : Saturation nanoseconds lower upper earliest latest where
  injective := nanoseconds_injective
  range_eq := Set.ext exists_nanoseconds_iff
  low_le_high := by decide

theorem clamp_saturates (seconds : Int64) (nanos : Int32) :
    ∃ t : Timestamp, clamp seconds nanos = (t.seconds, t.nanos) ∧
      Saturates nanoseconds lower upper earliest latest (total seconds nanos) t := by
  have hcarried := Signed.saturate_cases 64 (seconds.toInt + nanos.toInt / ns)
  have hmin := Int64.le_toInt seconds
  have hmax := Int64.toInt_lt seconds
  rw [show ns = 10 ^ 9 from rfl] at hcarried
  simp only [clamp, total, show ns = 10 ^ 9 from rfl]
  generalize Signed.saturate 64 (seconds.toInt + nanos.toInt / 10 ^ 9) = carried at *
  by_cases hbelow : carried < minSeconds
  · rw [if_pos hbelow]
    rw [minSeconds_eq] at hbelow
    refine ⟨earliest, rfl, .below ?_⟩
    rw [lower_eq]
    omega
  · rw [if_neg hbelow]
    rw [minSeconds_eq] at hbelow
    by_cases habove : maxSeconds < carried
    · rw [if_pos habove]
      rw [maxSeconds_eq] at habove
      refine ⟨latest, rfl, .above ?_⟩
      rw [upper_eq]
      omega
    · rw [if_neg habove]
      rw [maxSeconds_eq] at habove
      have hseconds : minSeconds ≤ carried ∧ carried ≤ maxSeconds := by
        rw [minSeconds_eq, maxSeconds_eq]
        omega
      have hmem : minNanos ≤ nanos.toInt % 10 ^ 9 ∧ nanos.toInt % 10 ^ 9 ≤ maxNanos := by
        rw [minNanos_eq, maxNanos_eq]
        omega
      refine ⟨⟨carried, _, hseconds, hmem⟩, rfl, .exact ?_⟩
      simp only [nanoseconds]
      omega

theorem normalizes :
    Normalizes new (fun seconds nanos => some (clamp seconds nanos)) nanoseconds lower upper
      earliest latest := by
  apply Normalizes.of_saturation (fun t => (t.seconds, t.nanos)) saturation le_iff
  · exact fun t => rfl
  · intro seconds nanos t
    rw [new_eq_ok, Prod.mk.injEq]
  · intro seconds nanos
    obtain ⟨t, ht, hsaturates⟩ := clamp_saturates seconds nanos
    exact ⟨t, congrArg some ht, hsaturates⟩

end Timestamp

/-- Both constructors are exact on sums in range, and keep the order but for the last partial
second. -/
theorem clamps_normalize :
    Normalizes Duration.new Duration.clamp Duration.nanoseconds (-Duration.limit) Duration.limit
        Duration.shortest Duration.longest ∧
      Normalizes Timestamp.new (fun seconds nanos => some (Timestamp.clamp seconds nanos))
        Timestamp.nanoseconds Timestamp.lower Timestamp.upper Timestamp.earliest Timestamp.latest :=
  ⟨Duration.normalizes, Timestamp.normalizes⟩

/-- One nanosecond past the last instant is ordered before that instant. -/
theorem last_second_reversed :
    (∃ d e, Builds Duration.new Duration.clamp 315576000000 999999999 d ∧
      Builds Duration.new Duration.clamp 315576000001 0 e ∧
      total 315576000000 999999999 < total 315576000001 0 ∧ ¬ d ≤ e ∧
      ¬ Closest Duration.nanoseconds (total 315576000001 0) e) ∧
    (∃ s t, Builds Timestamp.new (fun seconds nanos => some (Timestamp.clamp seconds nanos))
        253402300799 999999999 s ∧
      Builds Timestamp.new (fun seconds nanos => some (Timestamp.clamp seconds nanos))
        253402300800 0 t ∧
      total 253402300799 999999999 < total 253402300800 0 ∧ ¬ s ≤ t ∧
      ¬ Closest Timestamp.nanoseconds (total 253402300800 0) t) := by
  constructor
  · refine ⟨Duration.last, Duration.longest, ⟨_, rfl, rfl⟩, ⟨_, rfl, rfl⟩, by decide, ?_, ?_⟩
    · rw [Duration.le_iff]
      decide
    · intro hclosest
      exact absurd (hclosest Duration.last) (by decide)
  · refine ⟨Timestamp.last, Timestamp.latest, ⟨_, rfl, rfl⟩, ⟨_, rfl, rfl⟩, by decide, ?_, ?_⟩
    · rw [Timestamp.le_iff]
      decide
    · intro hclosest
      exact absurd (hclosest Timestamp.last) (by decide)

end GoogleCloudRust.Wkt

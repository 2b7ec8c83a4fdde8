import Mathlib.Order.Lattice
import Mathlib.Algebra.Order.Ring.Nat

/-! # Durations and instants

Durations have nanosecond resolution and saturate at a fixed maximum. Instants are
counted from the start of the clock, up to a bound that depends on the platform. -/

namespace GoogleCloudRust

/-- `u64::MAX` seconds and the largest fraction of a second. -/
def Duration.maxNanos : ℕ := (2 ^ 64 - 1) * 10 ^ 9 + 999999999

abbrev Duration := { nanos : ℕ // nanos ≤ Duration.maxNanos }

namespace Duration

def saturate (nanos : ℕ) : Duration := ⟨min nanos maxNanos, min_le_right nanos maxNanos⟩

def zero : Duration := saturate 0
def fromSecs (secs : ℕ) : Duration := saturate (secs * 10 ^ 9)
def fromMillis (millis : ℕ) : Duration := saturate (millis * 10 ^ 6)
def asMillis (duration : Duration) : ℕ := duration.1 / 10 ^ 6
def asSecs (duration : Duration) : ℕ := duration.1 / 10 ^ 9
def subsecNanos (duration : Duration) : ℕ := duration.1 % 10 ^ 9

/-- `Ord::max`. -/
protected abbrev max (duration other : Duration) : Duration := Max.max duration other

/-- `Ord::min`. -/
protected abbrev min (duration other : Duration) : Duration := Min.min duration other

def saturatingAdd (duration other : Duration) : Duration := saturate (duration.1 + other.1)

/-- `+`, which panics when the sum does not fit. -/
def checkedAdd (duration other : Duration) : Option Duration :=
  if h : duration.1 + other.1 ≤ maxNanos then some ⟨duration.1 + other.1, h⟩ else none

def saturatingMul (duration : Duration) (factor : ℕ) : Duration := saturate (duration.1 * factor)
def div (duration : Duration) (divisor : ℕ) : Duration := saturate (duration.1 / divisor)

theorem asSecs_mul_add_subsecNanos (duration : Duration) :
    duration.asSecs * 10 ^ 9 + duration.subsecNanos = duration.1 :=
  Nat.div_add_mod' duration.1 (10 ^ 9)

theorem subsecNanos_lt (duration : Duration) : duration.subsecNanos < 10 ^ 9 :=
  Nat.mod_lt _ (by decide)

theorem le_saturatingAdd (duration other : Duration) : duration ≤ duration.saturatingAdd other :=
  le_min (Nat.le_add_right _ _) duration.2

theorem checkedAdd_eq_some {duration other sum : Duration} :
    duration.checkedAdd other = some sum ↔ duration.1 + other.1 = sum.1 := by
  unfold checkedAdd
  split_ifs with h
  · rw [Option.some.injEq, Subtype.ext_iff]
  · simp only [false_iff]
    intro heq
    exact h (heq ▸ sum.2)

end Duration

abbrev Instant (bound : ℕ) := { nanos : ℕ // nanos ≤ bound }

namespace Instant

variable {bound : ℕ}

def checkedAdd (instant : Instant bound) (duration : Duration) : Option (Instant bound) :=
  if h : instant.1 + duration.1 ≤ bound then some ⟨instant.1 + duration.1, h⟩ else none

/-- `Ord::max`. -/
protected abbrev max (instant other : Instant bound) : Instant bound := Max.max instant other

def saturatingDurationSince (instant earlier : Instant bound) : Duration :=
  .saturate (instant.1 - earlier.1)

theorem checkedAdd_eq_some {instant later : Instant bound} {duration : Duration} :
    instant.checkedAdd duration = some later ↔ instant.1 + duration.1 = later.1 := by
  unfold checkedAdd
  split_ifs with h
  · rw [Option.some.injEq, Subtype.ext_iff]
  · simp only [false_iff]
    intro heq
    exact h (heq ▸ later.2)

/-- A later instant is some time away. -/
theorem saturatingDurationSince_ne_zero {instant earlier : Instant bound} (h : earlier < instant) :
    instant.saturatingDurationSince earlier ≠ Duration.zero := by
  intro heq
  have hnanos := Subtype.ext_iff.mp heq
  simp only [saturatingDurationSince, Duration.saturate, Duration.zero, Duration.maxNanos] at hnanos
  have hlt : earlier.1 < instant.1 := h
  omega

end Instant

/-- Nanoseconds since the epoch, or before it, that a duration can count. -/
structure SystemTime where
  nanos : ℤ
  nanos_le : nanos.natAbs ≤ Duration.maxNanos

/-- `duration_since` the epoch; the error has the duration until it. -/
def SystemTime.durationSinceEpoch (time : SystemTime) : Except Duration Duration :=
  if 0 ≤ time.nanos then .ok ⟨time.nanos.natAbs, time.nanos_le⟩
  else .error ⟨time.nanos.natAbs, time.nanos_le⟩

theorem SystemTime.durationSinceEpoch_cases (time : SystemTime) :
    (∃ d, time.durationSinceEpoch = .ok d ∧ time.nanos = d.1) ∨
      ∃ d, time.durationSinceEpoch = .error d ∧ time.nanos = -d.1 := by
  rw [durationSinceEpoch]
  by_cases hsign : 0 ≤ time.nanos
  · rw [if_pos hsign]
    refine .inl ⟨_, rfl, ?_⟩
    dsimp only
    omega
  · rw [if_neg hsign]
    refine .inr ⟨_, rfl, ?_⟩
    dsimp only
    omega

end GoogleCloudRust

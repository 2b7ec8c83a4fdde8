import Mathlib.Data.Set.Basic
import Mathlib.Order.Lattice
import Mathlib.Algebra.Order.Ring.Nat

/-! # Renewed leases

A client renews a lease at regular ticks. A renewal is on its way for a while before it reaches
the server, which extends the lease from then on, and the client learns of it later still. At a
tick the client may skip a lease that, by what it has learned, lasts beyond the next tick. -/

namespace GoogleCloudRust.Renewal

/-- The time between two ticks, how far beyond the next tick a lease lasts that is skipped, how
long a lease lasts once it is granted or extended, and how long it takes at most until the client
has the lease, until a renewal reaches the server, and until the client learns of it. -/
structure Timing where
  period : ℕ
  buffer : ℕ
  extension : ℕ
  grant : ℕ
  request : ℕ
  response : ℕ
  buffered : request + response ≤ buffer
  fits : grant + period + request < extension

namespace Timing

variable {timing : Timing} {now tick deadline last : ℕ} {sent more : Set ℕ}

/-- A renewal that is sent at the tick is in time, or one that has been sent is. -/
def Covered (timing : Timing) (tick deadline : ℕ) (sent : Set ℕ) : Prop :=
  tick + timing.request < deadline ∨ ∃ sentAt ∈ sent, sentAt + timing.request < deadline

/-- The lease lasts as long as the client takes it to last, but for the time of a response. -/
def Learned (timing : Timing) (deadline last : ℕ) : Prop :=
  last + timing.extension ≤ deadline + timing.response

/-- Whether the client skips the lease at a tick. -/
def Skips (timing : Timing) (now last : ℕ) : Prop :=
  now + timing.period + timing.buffer < last + timing.extension

theorem Covered.lt (h : timing.Covered tick deadline sent) (htick : now ≤ tick)
    (hsent : ∀ sentAt ∈ sent, now ≤ sentAt + timing.request) : now < deadline := by
  obtain hlt | ⟨sentAt, hmem, hlt⟩ := h
  · omega
  · exact (hsent sentAt hmem).trans_lt hlt

theorem Covered.mono {later : ℕ} (h : timing.Covered tick deadline sent)
    (hdeadline : deadline ≤ later) (hsent : sent ⊆ more) : timing.Covered tick later more := by
  obtain hlt | ⟨sentAt, hmem, hlt⟩ := h
  · exact .inl (hlt.trans_le hdeadline)
  · exact .inr ⟨sentAt, hsent hmem, hlt.trans_le hdeadline⟩

theorem covered_of_granted {grantedAt : ℕ} (htick : tick ≤ now + timing.period)
    (hnow : now ≤ grantedAt + timing.grant) (hdeadline : grantedAt + timing.extension ≤ deadline) :
    timing.Covered tick deadline sent := by
  have hfits := timing.fits
  refine .inl ?_
  omega

theorem covered_of_extended (htick : tick ≤ now + timing.period) :
    timing.Covered tick (now + timing.extension) sent :=
  covered_of_granted htick (Nat.le_add_right _ _) le_rfl

/-- A lease that is skipped at a tick is in time for the next. -/
theorem covered_of_skips (htick : tick ≤ now + timing.period)
    (hlearned : timing.Learned deadline last) (hskips : timing.Skips now last) :
    timing.Covered tick deadline sent := by
  have hbuffered := timing.buffered
  unfold Learned at hlearned
  unfold Skips at hskips
  refine .inl ?_
  omega

/-- A lease that is renewed at a tick is covered by that renewal. -/
theorem Covered.renew (h : timing.Covered tick deadline sent) (hsent : sent ⊆ more)
    (hrenewed : tick ∈ more) {next : ℕ} : timing.Covered next deadline more := by
  obtain hlt | ⟨sentAt, hmem, hlt⟩ := h
  · exact .inr ⟨tick, hrenewed, hlt⟩
  · exact .inr ⟨sentAt, hsent hmem, hlt⟩

theorem learned_of_extended {reachedAt : ℕ} (hnow : now ≤ reachedAt + timing.response)
    (hdeadline : reachedAt + timing.extension ≤ deadline) : timing.Learned deadline now := by
  unfold Learned
  omega

theorem Learned.mono {later : ℕ} (h : timing.Learned deadline last) (hle : deadline ≤ later) :
    timing.Learned later last :=
  Nat.le_trans h (Nat.add_le_add_right hle _)

end Timing

end GoogleCloudRust.Renewal

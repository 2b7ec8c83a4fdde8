import GoogleCloudRust.Library.Renewal
import GoogleCloudRust.Model.LeaseDeadlines
import GoogleCloudRust.Verification.Leases.ExactlyOnce

/-! # Leases do not lapse

A message that is under lease has a request on its way that reaches the server in time, or a
request that is sent at the next tick does. -/

namespace GoogleCloudRust.Subscriber

/-! ## Entries of at-least-once leases -/

namespace AtLeastOnceLeases

variable {leases : AtLeastOnceLeases} {id : String}

theorem lookup_ack (ackId : String) :
    (ack leases ackId).underLease.lookup id =
      if id = ackId then none else leases.underLease.lookup id :=
  Leases.lookup_erase_eq

theorem lookup_nack (ackId : String) :
    (nack leases ackId).underLease.lookup id =
      if id = ackId then none else leases.underLease.lookup id := by
  unfold nack
  by_cases hleased : (leases.underLease.lookup ackId).isSome
  · rw [if_pos hleased]
    exact Leases.lookup_erase_eq
  · rw [if_neg hleased]
    by_cases h : id = ackId
    · rw [if_pos h, h]
      exact Option.not_isSome_iff_eq_none.mp hleased
    · rw [if_neg h]

theorem lookup_updateLastExtension (now : ℕ) (ackIds : List String) :
    (updateLastExtension leases now ackIds).underLease.lookup id =
      if id ∈ ackIds then
        (leases.underLease.lookup id).map fun info => { info with lastExtension := some now }
      else leases.underLease.lookup id := by
  unfold updateLastExtension
  induction ackIds generalizing leases with
  | nil => rfl
  | cons first ackIds ih =>
      rw [List.foldl_cons, ih, Leases.lookup_modify]
      by_cases hfirst : id = first
      · by_cases hmem : id ∈ ackIds
        · rw [if_pos hmem, if_pos hfirst, if_pos (List.mem_cons_of_mem _ hmem), Option.map_map]
          rfl
        · rw [if_neg hmem, if_pos hfirst, if_pos (hfirst ▸ List.mem_cons_self)]
      · by_cases hmem : id ∈ ackIds
        · rw [if_pos hmem, if_neg hfirst, if_pos (List.mem_cons_of_mem _ hmem)]
        · rw [if_neg hmem, if_neg hfirst, if_neg (List.not_mem_cons_of_ne_of_not_mem hfirst hmem)]

/-! ## Extending leases -/

/-- Whether an entry is pushed. -/
def pushes (now maxLease maxLeaseExtension : ℕ) (entry : String × AtLeastOnceInfo) : Bool :=
  !isExpired now maxLease entry.2 && !outlasts now maxLeaseExtension entry.2.lastExtension

theorem retain_batches (now maxLease maxLeaseExtension : ℕ) (order : List String) :
    (retain leases now maxLease maxLeaseExtension order).1 =
      batch (((leases.visit order).filter (pushes now maxLease maxLeaseExtension)).map
        Prod.fst) := by
  refine congrArg Batches.finish (Batches.foldl_push ?_ (leases.visit order))
  intro batches entry
  cases hexpired : isExpired now maxLease entry.2 with
  | true => simp [pushes, hexpired]
  | false =>
      cases houtlasts : outlasts now maxLeaseExtension entry.2.lastExtension with
      | true => simp [pushes, houtlasts]
      | false => simp [pushes, hexpired, houtlasts]

theorem length_retain (now maxLease maxLeaseExtension : ℕ) (order : List String) :
    ∀ ids ∈ (retain leases now maxLease maxLeaseExtension order).1, ids.length ≤ 1000 := by
  rw [retain_batches]
  intro ids hids
  exact (Batches.length_chunks (by decide) _ ids hids).2

theorem lookup_retain (now maxLease maxLeaseExtension : ℕ) (order : List String) :
    (retain leases now maxLease maxLeaseExtension order).2.underLease.lookup id =
      (leases.underLease.lookup id).filter fun info => !isExpired now maxLease info :=
  Leases.lookup_filter _

/-- A message that remains under lease is in a batch, unless its lease outlasts the next tick. -/
theorem exists_mem_retain {info : AtLeastOnceInfo} {now maxLease maxLeaseExtension : ℕ}
    {order : List String}
    (hinfo : (retain leases now maxLease maxLeaseExtension order).2.underLease.lookup id =
      some info)
    (houtlasts : outlasts now maxLeaseExtension info.lastExtension = false) :
    ∃ ids ∈ (retain leases now maxLease maxLeaseExtension order).1, id ∈ ids := by
  rw [lookup_retain, Option.filter_eq_some_iff] at hinfo
  have hpushes : pushes now maxLease maxLeaseExtension (id, info) = true := by
    rw [pushes, houtlasts, Bool.not_false, Bool.and_true]
    exact hinfo.2
  have hmem : id ∈ (retain leases now maxLease maxLeaseExtension order).1.flatten := by
    rw [retain_batches, batch, Batches.flatten_chunks]
    exact List.mem_map.mpr
      ⟨(id, info), List.mem_filter.mpr ⟨(Leases.mem_visit order).mpr hinfo.1, hpushes⟩, rfl⟩
  exact List.mem_flatten.mp hmem

end AtLeastOnceLeases

theorem setMaxLeaseExtension_mem (v : Duration) :
    10 ≤ setMaxLeaseExtension v ∧ setMaxLeaseExtension v ≤ 600 := by
  unfold setMaxLeaseExtension
  omega

namespace TimedLeases

open Renewal

/-! ## Times -/

/-- The times of the lease loop and of what is on its way. -/
def timing {maxLeaseExtension : ℕ} (hlong : 10 * 10 ^ 9 ≤ maxLeaseExtension) : Timing where
  period := extendPeriod
  buffer := extendBuffer
  extension := maxLeaseExtension
  grant := maxDelay
  request := maxDelay
  response := maxDelay
  buffered := by decide
  fits := Nat.lt_of_lt_of_le (by decide) hlong

theorem outlasts_iff_skips {maxLeaseExtension now : ℕ} (hlong : 10 * 10 ^ 9 ≤ maxLeaseExtension)
    (lastExtension : Option ℕ) :
    outlasts now maxLeaseExtension lastExtension = true ↔
      ∃ last, lastExtension = some last ∧ (timing hlong).Skips now last := by
  rw [outlasts, Option.any_eq_true]
  simp only [decide_eq_true_eq]
  rfl

variable {options : LeaseOptions} {hlong : 10 * 10 ^ 9 ≤ options.maxLeaseExtension}
  {timed next : TimedLeases} {id : String} {info : AtLeastOnceInfo} {events : List Event}

/-- What is known of a message that is under an at-least-once lease. -/
def leased (timed : TimedLeases) (id : String) : Option AtLeastOnceInfo :=
  timed.state.leases.underLease.lookup id

/-- When the requests have been sent that are on their way to the server to extend a lease. -/
def onTheWay (timed : TimedLeases) (id : String) : Set ℕ :=
  {sentAt | ∃ pending ∈ timed.pendingExtends,
    pending.reachedAt = none ∧ id ∈ pending.ackIds ∧ pending.sentAt = sentAt}

theorem onTheWay_mono {timed next : TimedLeases} (id : String)
    (h : ∀ pending ∈ timed.pendingExtends, pending.reachedAt = none → id ∈ pending.ackIds →
      pending ∈ next.pendingExtends) : timed.onTheWay id ⊆ next.onTheWay id := by
  rintro sentAt ⟨pending, hpending, hreached, hid, rfl⟩
  exact ⟨pending, h pending hpending hreached hid, hreached, hid, rfl⟩

/-! ## What holds in every state -/

/-- No event is overdue, the server knows of the extensions that the lease state knows of, and
all leases are covered. -/
structure Kept (hlong : 10 * 10 ^ 9 ≤ options.maxLeaseExtension) (timed : TimedLeases) :
    Prop where
  unchanged : timed.options = options
  ticks : timed.now ≤ timed.nextExtend ∧ timed.nextExtend ≤ timed.now + extendPeriod
  deadlines : ∀ id, timed.deadlines id ≤ timed.now + options.maxLeaseExtension
  messages : ∀ message ∈ timed.messages, timed.now ≤ message.leftAt + maxDelay ∧
    message.leftAt + options.maxLeaseExtension ≤ timed.deadlines message.ackId
  sent : ∀ pending ∈ timed.pendingExtends, pending.reachedAt = none →
    timed.now ≤ pending.sentAt + maxDelay
  reached : ∀ pending ∈ timed.pendingExtends, ∀ reachedAt, pending.reachedAt = some reachedAt →
    timed.now ≤ reachedAt + maxDelay ∧
      ∀ id ∈ pending.ackIds, reachedAt + options.maxLeaseExtension ≤ timed.deadlines id
  learned : ∀ id info last, timed.leased id = some info → info.lastExtension = some last →
    (timing hlong).Learned (timed.deadlines id) last
  covered : ∀ id, (timed.leased id).isSome →
    (timing hlong).Covered timed.nextExtend (timed.deadlines id) (timed.onTheWay id)

theorem Kept.lt_deadline (h : Kept hlong timed) (hid : (timed.leased id).isSome) :
    timed.now < timed.deadlines id := by
  refine (h.covered id hid).lt h.ticks.1 ?_
  rintro _ ⟨pending, hpending, hreached, -, rfl⟩
  exact h.sent pending hpending hreached

theorem kept_new (now : ℕ) {extendStart : ℕ} (hstart : extendStart ≤ extendPeriod) :
    Kept hlong (new options now extendStart) where
  unchanged := rfl
  ticks := ⟨Nat.le_add_right _ _, Nat.add_le_add_left hstart _⟩
  deadlines := fun _ => Nat.zero_le _
  messages := by simp [new]
  sent := by simp [new]
  reached := by simp [new]
  learned := by
    intro id info last hinfo
    cases hinfo
  covered := by
    intro id hid
    cases hid

/-- An operation on the leases that adds none and extends none. -/
theorem Kept.of_leases (h : Kept hlong timed) {state : LeaseState}
    (hstate : ∀ id info, state.leases.underLease.lookup id = some info →
      timed.leased id = some info) : Kept hlong { timed with state := state } where
  unchanged := h.unchanged
  ticks := h.ticks
  deadlines := h.deadlines
  messages := h.messages
  sent := h.sent
  reached := h.reached
  learned := by
    intro id info last hinfo hlast
    exact h.learned id info last (hstate id info hinfo) hlast
  covered := by
    intro id hid
    obtain ⟨info, hinfo⟩ := Option.isSome_iff_exists.mp hid
    exact h.covered id (Option.isSome_iff_exists.mpr ⟨info, hstate id info hinfo⟩)

theorem Kept.elapse (h : Kept hlong timed) {duration : ℕ}
    (hlimits : ∀ limit ∈ timed.limits, timed.now + duration ≤ limit) :
    Kept hlong { timed with now := timed.now + duration } where
  unchanged := h.unchanged
  ticks := by
    have htick := hlimits timed.nextExtend List.mem_cons_self
    have hlast := h.ticks.2
    exact ⟨htick, by dsimp only; omega⟩
  deadlines := by
    intro id
    have hle := h.deadlines id
    dsimp only
    omega
  messages := by
    intro message hmessage
    refine ⟨hlimits _ ?_, (h.messages message hmessage).2⟩
    exact List.mem_append_left _ (List.mem_cons_of_mem _ (List.mem_map_of_mem hmessage))
  sent := by
    intro pending hpending hreached
    refine hlimits _ (List.mem_append_right _ (List.mem_map.mpr ⟨pending, hpending, ?_⟩))
    rw [hreached]
    rfl
  reached := by
    intro pending hpending reachedAt hreached
    refine ⟨hlimits _ ?_, (h.reached pending hpending reachedAt hreached).2⟩
    refine List.mem_append_right _ (List.mem_map.mpr ⟨pending, hpending, ?_⟩)
    rw [hreached]
    rfl
  learned := h.learned
  covered := h.covered

/-! ## What the server does -/

theorem Kept.extendDeadlines_eq (h : Kept hlong timed) {ackIds : List String}
    (hid : id ∈ ackIds) :
    timed.extendDeadlines ackIds id = timed.now + options.maxLeaseExtension := by
  rw [← h.unchanged]
  exact if_pos hid

theorem Kept.le_extendDeadlines (h : Kept hlong timed) (ackIds : List String) (id : String) :
    timed.deadlines id ≤ timed.extendDeadlines ackIds id := by
  unfold extendDeadlines
  split_ifs with hid
  · rw [h.unchanged]
    exact h.deadlines id
  · exact le_rfl

theorem Kept.extendDeadlines_le (h : Kept hlong timed) (ackIds : List String) (id : String) :
    timed.extendDeadlines ackIds id ≤ timed.now + options.maxLeaseExtension := by
  unfold extendDeadlines
  split_ifs with hid
  · rw [h.unchanged]
  · exact h.deadlines id

theorem Kept.deliver (h : Kept hlong timed) (ackId : String) (exactlyOnce : Bool) :
    Kept hlong { timed with
      messages := timed.messages ++ [⟨ackId, exactlyOnce, timed.now⟩]
      deadlines := timed.extendDeadlines [ackId] } where
  unchanged := h.unchanged
  ticks := h.ticks
  deadlines := h.extendDeadlines_le [ackId]
  messages := by
    intro message hmessage
    obtain hold | hnew := List.mem_append.mp hmessage
    · exact ⟨(h.messages message hold).1,
        (h.messages message hold).2.trans (h.le_extendDeadlines _ _)⟩
    · obtain rfl := List.mem_singleton.mp hnew
      exact ⟨Nat.le_add_right _ _, (h.extendDeadlines_eq (List.mem_singleton_self _)).ge⟩
  sent := h.sent
  reached := by
    intro pending hpending reachedAt hreached
    obtain ⟨hnow, hids⟩ := h.reached pending hpending reachedAt hreached
    exact ⟨hnow, fun id hid => (hids id hid).trans (h.le_extendDeadlines _ id)⟩
  learned := by
    intro id info last hinfo hlast
    exact (h.learned id info last hinfo hlast).mono (h.le_extendDeadlines _ id)
  covered := by
    intro id hid
    exact (h.covered id hid).mono (h.le_extendDeadlines _ id) subset_rfl

theorem Kept.reach (h : Kept hlong timed) {pending : PendingExtend}
    (hpending : pending ∈ timed.pendingExtends) :
    Kept hlong { timed with
      pendingExtends := timed.pendingExtends.erase pending ++
        [{ pending with reachedAt := some timed.now }]
      deadlines := timed.extendDeadlines pending.ackIds } where
  unchanged := h.unchanged
  ticks := h.ticks
  deadlines := h.extendDeadlines_le pending.ackIds
  messages := by
    intro message hmessage
    exact ⟨(h.messages message hmessage).1,
      (h.messages message hmessage).2.trans (h.le_extendDeadlines _ _)⟩
  sent := by
    intro other hother hreached
    obtain hold | hnew := List.mem_append.mp hother
    · exact h.sent other (List.mem_of_mem_erase hold) hreached
    · obtain rfl := List.mem_singleton.mp hnew
      cases hreached
  reached := by
    intro other hother reachedAt hreached
    obtain hold | hnew := List.mem_append.mp hother
    · obtain ⟨hnow, hids⟩ := h.reached other (List.mem_of_mem_erase hold) reachedAt hreached
      exact ⟨hnow, fun id hid => (hids id hid).trans (h.le_extendDeadlines _ id)⟩
    · obtain rfl := List.mem_singleton.mp hnew
      cases hreached
      exact ⟨Nat.le_add_right _ _, fun id hid => (h.extendDeadlines_eq hid).ge⟩
  learned := by
    intro id info last hinfo hlast
    exact (h.learned id info last hinfo hlast).mono (h.le_extendDeadlines _ id)
  covered := by
    intro id hid
    by_cases hmem : id ∈ pending.ackIds
    · dsimp only
      rw [h.extendDeadlines_eq hmem]
      exact Timing.covered_of_extended h.ticks.2
    · -- The requests for the other ids are still on their way.
      refine (h.covered id hid).mono (h.le_extendDeadlines _ id) (onTheWay_mono id ?_)
      intro other hother hreached hext
      have hne : other ≠ pending := by
        rintro rfl
        exact hmem hext
      exact List.mem_append_left _ ((List.mem_erase_of_ne hne).mpr hother)

/-! ## What the lease state does -/

theorem Kept.receive (h : Kept hlong timed) (message : Message) :
    Kept hlong { timed with messages := timed.messages.erase message } where
  unchanged := h.unchanged
  ticks := h.ticks
  deadlines := h.deadlines
  messages := fun other hother => h.messages other (List.mem_of_mem_erase hother)
  sent := h.sent
  reached := h.reached
  learned := h.learned
  covered := h.covered

theorem lookup_add_atLeastOnce (state : LeaseState) (ackId : String) (info : AtLeastOnceInfo) :
    (state.add ⟨ackId, .atLeastOnce info⟩).leases.underLease.lookup id =
      if id = ackId then some info else state.leases.underLease.lookup id :=
  Leases.lookup_insert_eq info

theorem Kept.add (h : Kept hlong timed) {message : Message} (hmessage : message ∈ timed.messages)
    (receiveTime : ℕ) :
    Kept hlong { timed with
      state := timed.state.add ⟨message.ackId, .atLeastOnce { receiveTime := receiveTime }⟩ } where
  unchanged := h.unchanged
  ticks := h.ticks
  deadlines := h.deadlines
  messages := h.messages
  sent := h.sent
  reached := h.reached
  learned := by
    intro id info last hinfo hlast
    rw [leased, lookup_add_atLeastOnce] at hinfo
    split_ifs at hinfo with heq
    · cases hinfo
      cases hlast
    · exact h.learned id info last hinfo hlast
  covered := by
    intro id hid
    rw [leased, lookup_add_atLeastOnce] at hid
    split_ifs at hid with heq
    · obtain ⟨hnow, hdeadline⟩ := h.messages message hmessage
      rw [heq]
      exact Timing.covered_of_granted h.ticks.2 hnow hdeadline
    · exact h.covered id hid

theorem requests_extend (state : LeaseState) (options : LeaseOptions) (now : ℕ)
    (order : List String) :
    requests now ((state.extend options now order).calls.drop state.calls.length) =
      (AtLeastOnceLeases.retain state.leases now options.maxLease options.maxLeaseExtension
        order).1.map fun ackIds => { ackIds := ackIds, sentAt := now } := by
  have hcalls : (state.extend options now order).calls.drop state.calls.length =
      (AtLeastOnceLeases.retain state.leases now options.maxLease options.maxLeaseExtension
        order).1.map .extend ++
      (state.eoLeases.retain now options.maxLease options.maxLeaseExtension
        order).1.map .eoExtend := by
    rw [LeaseState.extend]
    dsimp only
    rw [List.append_assoc, List.drop_left]
  rw [hcalls, requests, List.filterMap_append, List.filterMap_map, List.filterMap_map]
  simp

theorem lookup_extend {state : LeaseState} {now : ℕ} {order : List String} :
    (state.extend options now order).leases.underLease.lookup id =
      (state.leases.underLease.lookup id).filter fun info =>
        !AtLeastOnceLeases.isExpired now options.maxLease info :=
  AtLeastOnceLeases.lookup_retain now options.maxLease options.maxLeaseExtension order

theorem Kept.extend (h : Kept hlong timed) (htick : timed.now = timed.nextExtend)
    (order : List String) :
    Kept hlong { timed with
      state := timed.state.extend timed.options timed.now order
      nextExtend := timed.nextExtend + extendPeriod
      pendingExtends := timed.pendingExtends ++ requests timed.now
        ((timed.state.extend timed.options timed.now order).calls.drop
          timed.state.calls.length) } where
  unchanged := h.unchanged
  ticks := by
    dsimp only
    omega
  deadlines := h.deadlines
  messages := h.messages
  sent := by
    intro pending hpending hreached
    obtain hold | hnew := List.mem_append.mp hpending
    · exact h.sent pending hold hreached
    · rw [requests_extend] at hnew
      obtain ⟨ackIds, -, rfl⟩ := List.mem_map.mp hnew
      exact Nat.le_add_right _ _
  reached := by
    intro pending hpending reachedAt hreached
    obtain hold | hnew := List.mem_append.mp hpending
    · exact h.reached pending hold reachedAt hreached
    · rw [requests_extend] at hnew
      obtain ⟨ackIds, -, rfl⟩ := List.mem_map.mp hnew
      cases hreached
  learned := by
    intro id info last hinfo hlast
    rw [leased, lookup_extend, Option.filter_eq_some_iff] at hinfo
    exact h.learned id info last hinfo.1 hlast
  covered := by
    intro id hid
    obtain ⟨info, hinfo⟩ := Option.isSome_iff_exists.mp hid
    have hold : timed.leased id = some info := by
      rw [leased, lookup_extend, Option.filter_eq_some_iff] at hinfo
      exact hinfo.1
    rw [h.unchanged] at hinfo ⊢
    cases houtlasts : outlasts timed.now options.maxLeaseExtension info.lastExtension with
    | true =>
        obtain ⟨last, hlast, hskips⟩ := (outlasts_iff_skips hlong _).mp houtlasts
        exact Timing.covered_of_skips (Nat.add_le_add_right htick.ge _)
          (h.learned id info last hold hlast) hskips
    | false =>
        obtain ⟨ackIds, hackIds, hmem⟩ := AtLeastOnceLeases.exists_mem_retain hinfo houtlasts
        refine (h.covered id (Option.isSome_iff_exists.mpr ⟨info, hold⟩)).renew ?_ ?_
        · refine onTheWay_mono id ?_
          intro pending hpending _ _
          exact List.mem_append_left _ hpending
        · refine ⟨⟨ackIds, timed.now, none⟩, ?_, rfl, hmem, htick⟩
          refine List.mem_append_right _ ?_
          rw [requests_extend]
          exact List.mem_map.mpr ⟨ackIds, hackIds, rfl⟩

theorem Kept.extendCompleted (h : Kept hlong timed) {pending : PendingExtend}
    (hpending : pending ∈ timed.pendingExtends) (hreached : pending.reachedAt ≠ none) :
    Kept hlong { timed with
      state := timed.state.updateLastExtension timed.now pending.ackIds
      pendingExtends := timed.pendingExtends.erase pending } where
  unchanged := h.unchanged
  ticks := h.ticks
  deadlines := h.deadlines
  messages := h.messages
  sent := fun other hother => h.sent other (List.mem_of_mem_erase hother)
  reached := fun other hother => h.reached other (List.mem_of_mem_erase hother)
  learned := by
    intro id info last hinfo hlast
    rw [leased, LeaseState.updateLastExtension, AtLeastOnceLeases.lookup_updateLastExtension]
      at hinfo
    split_ifs at hinfo with hid
    · obtain ⟨reachedAt, hat⟩ := Option.ne_none_iff_exists'.mp hreached
      obtain ⟨hnow, hids⟩ := h.reached pending hpending reachedAt hat
      obtain ⟨old, -, rfl⟩ := Option.map_eq_some_iff.mp hinfo
      cases hlast
      exact Timing.learned_of_extended hnow (hids id hid)
    · exact h.learned id info last hinfo hlast
  covered := by
    intro id hid
    have hleased : (timed.leased id).isSome := by
      rw [leased, LeaseState.updateLastExtension, AtLeastOnceLeases.lookup_updateLastExtension]
        at hid
      split_ifs at hid
      · rwa [Option.isSome_map] at hid
      · exact hid
    refine (h.covered id hleased).mono le_rfl (onTheWay_mono id ?_)
    intro other hother hunreached _
    refine (List.mem_erase_of_ne ?_).mpr hother
    rintro rfl
    exact hreached hunreached

/-! ## Steps and runs -/

theorem lookup_process (state : LeaseState) (action : Action) :
    (state.process action).leases.underLease.lookup id =
      if action = .ack id ∨ action = .nack id then none
      else state.leases.underLease.lookup id := by
  cases action with
  | ack ackId =>
      refine (AtLeastOnceLeases.lookup_ack ackId).trans ?_
      simp [eq_comm]
  | nack ackId =>
      refine (AtLeastOnceLeases.lookup_nack ackId).trans ?_
      simp [eq_comm]
  | exactlyOnceAck ackId => simp [LeaseState.process]
  | exactlyOnceNack ackId => simp [LeaseState.process]

theorem Kept.step (h : Kept hlong timed) {event : Event} (hstep : timed.step event = some next) :
    Kept hlong next := by
  cases event with
  | elapse duration =>
      obtain ⟨hlimits, hnext⟩ := Option.ite_none_right_eq_some.mp hstep
      cases hnext
      exact h.elapse hlimits
  | deliver ackId exactlyOnce =>
      cases hstep
      exact h.deliver ackId exactlyOnce
  | add message receiveTime =>
      obtain ⟨⟨hmessage, -⟩, hnext⟩ := Option.ite_none_right_eq_some.mp hstep
      cases hnext
      by_cases honce : message.exactlyOnce
      · rw [if_pos honce]
        exact (h.receive message).of_leases fun _ _ hinfo => hinfo
      · rw [if_neg honce]
        exact (h.add hmessage receiveTime).receive message
  | process action =>
      cases hstep
      refine h.of_leases ?_
      intro id info hinfo
      rw [lookup_process] at hinfo
      split_ifs at hinfo
      exact hinfo
  | confirm results =>
      cases hstep
      exact h.of_leases fun _ _ hinfo => hinfo
  | updateLastExtensionEo ackIds =>
      cases hstep
      exact h.of_leases fun _ _ hinfo => hinfo
  | flush =>
      cases hstep
      exact h.of_leases fun _ _ hinfo => hinfo
  | extend order =>
      obtain ⟨htick, hnext⟩ := Option.ite_none_right_eq_some.mp hstep
      cases hnext
      exact h.extend htick order
  | reach pending =>
      obtain ⟨⟨hpending, -⟩, hnext⟩ := Option.ite_none_right_eq_some.mp hstep
      cases hnext
      exact h.reach hpending
  | extendCompleted pending =>
      obtain ⟨⟨hpending, hreached⟩, hnext⟩ := Option.ite_none_right_eq_some.mp hstep
      cases hnext
      exact h.extendCompleted hpending hreached

/-- The lease of a message is settled, or another one begins. -/
def Event.Ends (id : String) : Event → Prop
  | .process action => action = .ack id ∨ action = .nack id
  | .add message _ => message.ackId = id ∧ message.exactlyOnce = false
  | _ => False

/-- The message is under lease, unless it has been held for too long. -/
def Held (options : LeaseOptions) (id : String) (receiveTime : ℕ) (timed : TimedLeases) : Prop :=
  timed.now ≤ receiveTime + options.maxLease →
    ∃ info, timed.leased id = some info ∧ info.receiveTime = receiveTime

theorem Held.of_leased {receiveTime : ℕ} (h : Held options id receiveTime timed)
    (hnow : timed.now ≤ next.now) (hleased : next.leased id = timed.leased id) :
    Held options id receiveTime next := by
  intro hheld
  rw [hleased]
  exact h (hnow.trans hheld)

theorem Held.step {receiveTime : ℕ} (h : Held options id receiveTime timed)
    (hkept : Kept hlong timed) {event : Event} (hends : ¬ event.Ends id)
    (hstep : timed.step event = some next) : Held options id receiveTime next := by
  cases event with
  | elapse duration =>
      obtain ⟨-, hnext⟩ := Option.ite_none_right_eq_some.mp hstep
      cases hnext
      exact h.of_leased (Nat.le_add_right _ _) rfl
  | deliver ackId exactlyOnce =>
      cases hstep
      exact h.of_leased le_rfl rfl
  | add message receiveTime =>
      obtain ⟨-, hnext⟩ := Option.ite_none_right_eq_some.mp hstep
      cases hnext
      refine h.of_leased le_rfl ?_
      by_cases honce : message.exactlyOnce
      · rw [if_pos honce]
        rfl
      · rw [if_neg honce, leased, lookup_add_atLeastOnce]
        exact if_neg fun hid => hends ⟨hid.symm, Bool.not_eq_true _ ▸ honce⟩
  | process action =>
      cases hstep
      refine h.of_leased le_rfl ?_
      rw [leased, lookup_process]
      exact if_neg hends
  | confirm results =>
      cases hstep
      exact h.of_leased le_rfl rfl
  | updateLastExtensionEo ackIds =>
      cases hstep
      exact h.of_leased le_rfl rfl
  | flush =>
      cases hstep
      exact h.of_leased le_rfl rfl
  | extend order =>
      obtain ⟨-, hnext⟩ := Option.ite_none_right_eq_some.mp hstep
      cases hnext
      intro hheld
      obtain ⟨info, hinfo, htime⟩ := h hheld
      refine ⟨info, ?_, htime⟩
      rw [leased, lookup_extend, hkept.unchanged, Option.filter_eq_some_iff]
      refine ⟨hinfo, ?_⟩
      rw [AtLeastOnceLeases.isExpired, htime, Bool.not_eq_true', decide_eq_false_iff_not]
      exact hheld.not_gt
  | reach pending =>
      obtain ⟨-, hnext⟩ := Option.ite_none_right_eq_some.mp hstep
      cases hnext
      exact h.of_leased le_rfl rfl
  | extendCompleted pending =>
      obtain ⟨-, hnext⟩ := Option.ite_none_right_eq_some.mp hstep
      cases hnext
      intro hheld
      obtain ⟨info, hinfo, htime⟩ := h hheld
      rw [leased, LeaseState.updateLastExtension, AtLeastOnceLeases.lookup_updateLastExtension]
      split_ifs
      · refine ⟨{ info with lastExtension := some timed.now }, ?_, htime⟩
        exact congrArg (Option.map _) hinfo
      · exact ⟨info, hinfo, htime⟩

theorem run_append {start final : TimedLeases} {before after : List Event}
    (h : start.run (before ++ after) = some final) :
    ∃ middle, start.run before = some middle ∧ middle.run after = some final := by
  rw [run, List.foldlM_append] at h
  exact Option.bind_eq_some_iff.mp h

theorem run_cons {start final : TimedLeases} {event : Event}
    (h : start.run (event :: events) = some final) :
    ∃ middle, start.step event = some middle ∧ middle.run events = some final := by
  rw [run, List.foldlM_cons] at h
  exact Option.bind_eq_some_iff.mp h

theorem Kept.run (h : Kept hlong timed) (hrun : timed.run events = some next) :
    Kept hlong next := by
  induction events generalizing timed with
  | nil =>
      cases hrun
      exact h
  | cons event events ih =>
      obtain ⟨middle, hstep, hrest⟩ := run_cons hrun
      exact ih (h.step hstep) hrest

theorem Held.run {receiveTime : ℕ} (h : Held options id receiveTime timed)
    (hkept : Kept hlong timed) (hends : ∀ event ∈ events, ¬ event.Ends id)
    (hrun : timed.run events = some next) : Held options id receiveTime next := by
  induction events generalizing timed with
  | nil =>
      cases hrun
      exact h
  | cons event events ih =>
      obtain ⟨middle, hstep, hrest⟩ := run_cons hrun
      obtain ⟨hfirst, hends⟩ := List.forall_mem_cons.mp hends
      exact ih (h.step hkept hfirst hstep) (hkept.step hstep) hends hrest

theorem held_of_add {message : Message} {receiveTime : ℕ} (honce : message.exactlyOnce = false)
    (hstep : timed.step (.add message receiveTime) = some next) :
    Held options message.ackId receiveTime next := by
  obtain ⟨-, hnext⟩ := Option.ite_none_right_eq_some.mp hstep
  cases hnext
  intro _
  refine ⟨{ receiveTime := receiveTime }, ?_, rfl⟩
  rw [if_neg (Bool.not_eq_true _ ▸ honce), leased, lookup_add_atLeastOnce, if_pos rfl]

/-- The deadlines of leased messages are ahead, and a message is leased from its addition until
it is acked or nacked, added again or held for too long. -/
structure Unlapsed (options : LeaseOptions) (events : List Event) (timed : TimedLeases) :
    Prop where
  ahead : ∀ id, (timed.leased id).isSome → timed.now < timed.deadlines id
  leased : ∀ before message receiveTime after,
    events = before ++ Event.add message receiveTime :: after →
    message.exactlyOnce = false → (∀ event ∈ after, ¬ event.Ends message.ackId) →
    timed.now ≤ receiveTime + options.maxLease → (timed.leased message.ackId).isSome

/-- Leases do not lapse between extensions, wherever the ticks are. -/
theorem run_unlapsed (options : LeaseOptions) (hlong : 10 * 10 ^ 9 ≤ options.maxLeaseExtension)
    (now extendStart : ℕ) (hstart : extendStart ≤ extendPeriod) (events : List Event)
    (timed : TimedLeases) (hrun : (new options now extendStart).run events = some timed) :
    Unlapsed options events timed := by
  have hnew : Kept hlong (new options now extendStart) := kept_new now hstart
  refine ⟨fun id hid => (hnew.run hrun).lt_deadline hid, ?_⟩
  rintro before message receiveTime after rfl honce hends hheld
  obtain ⟨first, hbefore, hafter⟩ := run_append hrun
  obtain ⟨second, hadd, hrest⟩ := run_cons hafter
  have hkept := (hnew.run hbefore).step hadd
  obtain ⟨info, hinfo, -⟩ := (held_of_add honce hadd).run hkept hends hrest hheld
  exact Option.isSome_iff_exists.mpr ⟨info, hinfo⟩

/-- A message is extended at the first tick, and its response is processed two seconds later. -/
def firstExtension : List Event :=
  [.deliver "a" false, .elapse (5 * 10 ^ 8), .add ⟨"a", false, 0⟩ 0, .extend [], .elapse (10 ^ 9),
    .reach ⟨["a"], 5 * 10 ^ 8, none⟩, .elapse (10 ^ 9),
    .extendCompleted ⟨["a"], 5 * 10 ^ 8, some (15 * 10 ^ 8)⟩]

theorem run_unlapsed_ten :
    ∃ timed, (new (streamOptions (600 * 10 ^ 9) 10 .waitForProcessing) 0 (5 * 10 ^ 8)).run
        firstExtension = some timed ∧
      Unlapsed (streamOptions (600 * 10 ^ 9) 10 .waitForProcessing) firstExtension timed := by
  have hsome : ((new (streamOptions (600 * 10 ^ 9) 10 .waitForProcessing) 0 (5 * 10 ^ 8)).run
      firstExtension).isSome := by decide +kernel
  obtain ⟨timed, hrun⟩ := Option.isSome_iff_exists.mp hsome
  exact ⟨timed, hrun, run_unlapsed _ (by decide) _ _ (by decide) _ _ hrun⟩

/-- The leases of a stream do not lapse whatever extension the application asks for. -/
theorem stream_lt_deadline (v : Duration) (maxLease now : ℕ) (behavior : ShutdownBehavior)
    {extendStart : ℕ} (hstart : extendStart ≤ extendPeriod)
    (hrun : (new (streamOptions maxLease (setMaxLeaseExtension v) behavior) now extendStart).run
      events = some timed) (hid : (timed.leased id).isSome) : timed.now < timed.deadlines id := by
  have hlong : 10 * 10 ^ 9 ≤
      (streamOptions maxLease (setMaxLeaseExtension v) behavior).maxLeaseExtension :=
    Nat.mul_le_mul_right _ (setMaxLeaseExtension_mem v).1
  exact (@Kept.run _ hlong _ _ _ (kept_new now hstart) hrun).lt_deadline hid

end TimedLeases

end GoogleCloudRust.Subscriber

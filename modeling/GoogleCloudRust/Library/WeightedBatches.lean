import Mathlib.Algebra.BigOperators.Group.List.Basic
import Mathlib.Algebra.Order.Ring.Nat
import Mathlib.Logic.Relation
import GoogleCloudRust.Library.Batches

/-! # Batches of a limited weight

A sequence is cut greedily: an element that is too heavy for the open batch closes it first, and a
batch is closed as soon as it is full. -/

namespace GoogleCloudRust

/-- The limits of a batch, which has a weight of its own. -/
structure BatchLimits (α : Type*) where
  count : ℕ
  capacity : ℕ
  base : ℕ
  size : α → ℕ

namespace BatchLimits

variable {α : Type*} (limits : BatchLimits α)

def weight (batch : List α) : ℕ := limits.base + (batch.map limits.size).sum

def Fits (batch : List α) (a : α) : Prop := limits.weight batch + limits.size a ≤ limits.capacity

def Full (batch : List α) : Prop :=
  limits.count ≤ batch.length ∨ limits.capacity ≤ limits.weight batch

instance (batch : List α) (a : α) : Decidable (limits.Fits batch a) := Nat.decLe _ _

instance (batch : List α) : Decidable (limits.Full batch) := inferInstanceAs (Decidable (_ ∨ _))

/-- What may be sent: one element may be too heavy alone. -/
structure Sendable (batch : List α) : Prop where
  ne_nil : batch ≠ []
  count : batch.length ≤ max 1 limits.count
  weight : batch.length = 1 ∨ limits.weight batch ≤ limits.capacity

end BatchLimits

namespace Batches

variable {α : Type*} {limits : BatchLimits α} {batches : Batches α}

/-- Closes the open batch. -/
def close (batches : Batches α) : Batches α := ⟨batches.finish, []⟩

/-- Adds to the open batch, and closes it if it is full. -/
def add (limits : BatchLimits α) (batches : Batches α) (a : α) : Batches α :=
  if limits.Full (batches.batch ++ [a]) then
    close { batches with batch := batches.batch ++ [a] }
  else { batches with batch := batches.batch ++ [a] }

def offer (limits : BatchLimits α) (batches : Batches α) (a : α) : Batches α :=
  if limits.Fits batches.batch a then add limits batches a else add limits batches.close a

theorem close_of_nil (h : batches.batch = []) : batches.close = batches := by
  rcases batches with ⟨full, batch⟩
  obtain rfl : batch = [] := h
  rfl

theorem close_of_ne (h : batches.batch ≠ []) :
    batches.close = ⟨batches.full ++ [batches.batch], []⟩ := by
  rw [close, finish, if_neg (by simpa using h)]

/-- Closing early what the next element closes makes no difference. -/
theorem offer_close {a : α} (h : ¬limits.Fits batches.batch a) :
    offer limits batches.close a = offer limits batches a := by
  have hclose : batches.close.close = batches.close := close_of_nil rfl
  rw [offer, offer, if_neg h, hclose, ite_self]

theorem offer_eq_add {a : α} (h : batches.batch = [] ∨ limits.Fits batches.batch a) :
    offer limits batches a = add limits batches a := by
  rw [offer]
  split_ifs with hfits
  · rfl
  · rw [close_of_nil (h.resolve_right hfits)]

/-! ## Limits -/

/-- The closed batches may be sent, and the open one is not full. -/
structure Within (limits : BatchLimits α) (batches : Batches α) : Prop where
  full : ∀ batch ∈ batches.full, limits.Sendable batch
  batch : batches.batch = [] ∨ ¬limits.Full batches.batch

theorem within_empty : Within limits {} := ⟨by simp, .inl rfl⟩

/-- A batch that is not full may be sent. -/
theorem sendable_of_not_full {batch : List α} (hne : batch ≠ []) (h : ¬limits.Full batch) :
    limits.Sendable batch := by
  rw [BatchLimits.Full, not_or, Nat.not_le, Nat.not_le] at h
  exact ⟨hne, Nat.le_trans (Nat.le_of_lt h.1) (Nat.le_max_right _ _), .inr (Nat.le_of_lt h.2)⟩

theorem Within.close_of_sendable (h : ∀ batch ∈ batches.full, limits.Sendable batch)
    (hbatch : batches.batch = [] ∨ limits.Sendable batches.batch) : Within limits batches.close := by
  refine ⟨?_, .inl rfl⟩
  by_cases hnil : batches.batch = []
  · rw [close_of_nil hnil]
    exact h
  · rw [close_of_ne hnil]
    intro batch hmem
    rcases List.mem_append.mp hmem with hmem | hmem
    · exact h batch hmem
    · rw [List.mem_singleton.mp hmem]
      exact hbatch.resolve_left hnil

theorem Within.close (h : Within limits batches) : Within limits batches.close := by
  by_cases hnil : batches.batch = []
  · exact .close_of_sendable h.full (.inl hnil)
  · exact .close_of_sendable h.full (.inr (sendable_of_not_full hnil (h.batch.resolve_left hnil)))

/-- The batch that an element is added to may be sent. -/
theorem sendable_concat {batch : List α} {a : α} (h : batch = [] ∨ ¬limits.Full batch)
    (hfits : batch = [] ∨ limits.Fits batch a) : limits.Sendable (batch ++ [a]) := by
  have hne : batch ++ [a] ≠ [] := by simp
  rcases h with rfl | h
  · exact ⟨hne, Nat.le_max_left _ _, .inl rfl⟩
  · rcases hfits with rfl | hfits
    · exact ⟨hne, Nat.le_max_left _ _, .inl rfl⟩
    · rw [BatchLimits.Full, not_or, Nat.not_le, Nat.not_le] at h
      refine ⟨hne, ?_, .inr ?_⟩
      · rw [List.length_append, List.length_singleton]
        exact Nat.le_trans h.1 (Nat.le_max_right _ _)
      · rw [BatchLimits.weight, List.map_append, List.sum_append, ← Nat.add_assoc]
        simpa [BatchLimits.Fits, BatchLimits.weight] using hfits

theorem Within.add (h : Within limits batches) {a : α}
    (hfits : batches.batch = [] ∨ limits.Fits batches.batch a) :
    Within limits (Batches.add limits batches a) := by
  rw [Batches.add]
  split_ifs with hfull
  · exact .close_of_sendable h.full (.inr (sendable_concat h.batch hfits))
  · exact ⟨h.full, .inr hfull⟩

theorem Within.offer (h : Within limits batches) (a : α) :
    Within limits (batches.offer limits a) := by
  rw [Batches.offer]
  split_ifs with hfits
  · exact h.add (.inr hfits)
  · exact h.close.add (.inl rfl)

/-! ## Closed batches -/

theorem full_prefix_close (batches : Batches α) : batches.full <+: batches.close.full := by
  by_cases hnil : batches.batch = []
  · exact ⟨[], by rw [close_of_nil hnil, List.append_nil]⟩
  · exact ⟨[batches.batch], by rw [close_of_ne hnil]⟩

theorem full_prefix_add (batches : Batches α) (a : α) :
    batches.full <+: (add limits batches a).full := by
  rw [add]
  split_ifs
  · exact full_prefix_close ⟨batches.full, batches.batch ++ [a]⟩
  · exact ⟨[], List.append_nil _⟩

/-- What is closed stays as it is. -/
theorem full_prefix_offer (batches : Batches α) (a : α) :
    batches.full <+: (offer limits batches a).full := by
  rw [offer]
  split_ifs
  · exact full_prefix_add batches a
  · exact (full_prefix_close batches).trans (full_prefix_add batches.close a)

theorem full_prefix_foldl (batches : Batches α) (elements : List α) :
    batches.full <+: (elements.foldl (offer limits) batches).full := by
  induction elements generalizing batches with
  | nil => exact ⟨[], List.append_nil _⟩
  | cons a elements ih => exact (full_prefix_offer batches a).trans (ih _)

end Batches

/-! ## Processes that cut -/

/-- A process that cuts what it has received; some of it still waits. -/
structure Cutter (α : Type*) where
  cut : Batches α := {}
  waiting : List α := []
  received : List α := []
  closed : Bool := false

namespace Cutter

variable {α : Type*} {limits : BatchLimits α} {calm : Prop} {s s' : Cutter α}

/-- A calm process works along the line of the waiting elements, and closes the last batch when
none are left. -/
inductive Step (limits : BatchLimits α) (calm : Prop) (s : Cutter α) : Cutter α → Prop
  | receive (a : α) (hclosed : s.closed = false) :
      Step limits calm s { s with waiting := s.waiting ++ [a], received := s.received ++ [a] }
  | work (cut : Batches α) (waiting : List α) (hclosed : s.closed = false)
      (hwithin : s.cut.Within limits → cut.Within limits)
      (hline : s.cut.Within limits → waiting.foldl (Batches.offer limits) cut =
        s.waiting.foldl (Batches.offer limits) s.cut) :
      Step limits calm s { s with cut := cut, waiting := waiting }
  | close (hclosed : s.closed = false) (hwaiting : s.waiting = []) :
      Step limits calm s { s with cut := s.cut.close, closed := true }
  | interrupt (s' : Cutter α) (hcalm : ¬calm) (hcut : s'.cut = s.cut ∨ s'.cut = s.cut.close) :
      Step limits calm s s'

abbrev Steps (limits : BatchLimits α) (calm : Prop) : Cutter α → Cutter α → Prop :=
  Relation.ReflTransGen (Step limits calm)

theorem Step.within (h : Step limits calm s s') (hwithin : s.cut.Within limits) :
    s'.cut.Within limits := by
  cases h with
  | receive a hclosed => exact hwithin
  | work cut waiting hclosed hcut hline => exact hcut hwithin
  | close hclosed hwaiting => exact hwithin.close
  | interrupt s' hcalm hcut =>
      rcases hcut with hcut | hcut
      · rwa [hcut]
      · rw [hcut]
        exact hwithin.close

theorem Steps.within (h : Steps limits calm s s') (hwithin : s.cut.Within limits) :
    s'.cut.Within limits := by
  induction h with
  | refl => exact hwithin
  | tail _ hstep ih => exact hstep.within ih

/-- Everything received was offered, or will be in its turn. -/
structure Greedy (limits : BatchLimits α) (s : Cutter α) : Prop where
  within : s.cut.Within limits
  line : s.closed = false →
    s.waiting.foldl (Batches.offer limits) s.cut = s.received.foldl (Batches.offer limits) {}
  closed : s.closed = true → s.waiting = [] ∧
    s.cut = (s.received.foldl (Batches.offer limits) {}).close

theorem greedy_new : Greedy limits {} :=
  ⟨Batches.within_empty, fun _ => rfl, fun h => absurd h Bool.false_ne_true⟩

theorem Step.greedy (h : Step limits calm s s') (hcalm : calm) (hgreedy : Greedy limits s) :
    Greedy limits s' := by
  have hwithin := h.within hgreedy.within
  cases h with
  | receive a hclosed =>
      refine ⟨hwithin, fun _ => ?_, fun h => absurd (hclosed.symm.trans h) Bool.false_ne_true⟩
      rw [List.foldl_append, List.foldl_append, hgreedy.line hclosed]
  | work cut waiting hclosed hcut hline =>
      exact ⟨hwithin, fun _ => (hline hgreedy.within).trans (hgreedy.line hclosed),
        fun h => absurd (hclosed.symm.trans h) Bool.false_ne_true⟩
  | close hclosed hwaiting =>
      refine ⟨hwithin, fun h => absurd h.symm Bool.false_ne_true, fun _ => ⟨hwaiting, ?_⟩⟩
      have hline := hgreedy.line hclosed
      rw [hwaiting, List.foldl_nil] at hline
      rw [hline]
  | interrupt s' hnot hcut => exact absurd hcalm hnot

theorem Steps.greedy (h : Steps limits calm s s') (hcalm : calm) (hgreedy : Greedy limits s) :
    Greedy limits s' := by
  induction h with
  | refl => exact hgreedy
  | tail _ hstep ih => exact hstep.greedy hcalm ih

/-! ## Systems that cut -/

/-- From a state that is ready, allowed events do to a system what steps do to what it cuts. -/
structure Refines {σ ε : Type*} (limits : BatchLimits α) (step : σ → ε → σ) (view : σ → Cutter α)
    (Ready : σ → Prop) (Allowed : ε → Prop) (Calm : σ → ε → Prop) : Prop where
  step : ∀ s event, Ready s → (view s).cut.Within limits → Allowed event →
    Ready (step s event) ∧ Steps limits (Calm s event) (view s) (view (step s event))

namespace Refines

variable {σ ε : Type*} {step : σ → ε → σ} {view : σ → Cutter α} {Ready : σ → Prop}
  {Allowed : ε → Prop} {Calm : σ → ε → Prop} {state : σ} {events : List ε}

theorem foldl_within (h : Refines limits step view Ready Allowed Calm) (hready : Ready state)
    (hwithin : (view state).cut.Within limits) (hallowed : ∀ event ∈ events, Allowed event) :
    Ready (events.foldl step state) ∧ (view (events.foldl step state)).cut.Within limits := by
  induction events generalizing state with
  | nil => exact ⟨hready, hwithin⟩
  | cons event events ih =>
      obtain ⟨hnext, hsteps⟩ := h.step state event hready hwithin (hallowed event (by simp))
      exact ih hnext (hsteps.within hwithin)
        fun other hmem => hallowed other (List.mem_cons_of_mem event hmem)

/-- A run of events that never disturb cuts greedily. -/
theorem foldl_greedy (h : Refines limits step view Ready Allowed Calm) {Quiet : σ → Prop}
    {Undisturbing : ε → Prop}
    (hquiet : ∀ s event, Quiet s → Undisturbing event → Quiet (step s event))
    (hcalm : ∀ s event, Quiet s → Undisturbing event → Calm s event)
    (hready : Ready state) (hstate : Quiet state) (hgreedy : Greedy limits (view state))
    (hallowed : ∀ event ∈ events, Allowed event) (hevents : ∀ event ∈ events, Undisturbing event) :
    Greedy limits (view (events.foldl step state)) := by
  induction events generalizing state with
  | nil => exact hgreedy
  | cons event events ih =>
      have hevent := hevents event (by simp)
      obtain ⟨hnext, hsteps⟩ :=
        h.step state event hready hgreedy.within (hallowed event (by simp))
      exact ih hnext (hquiet state event hstate hevent)
        (hsteps.greedy (hcalm state event hstate hevent) hgreedy)
        (fun other hmem => hallowed other (List.mem_cons_of_mem event hmem))
        (fun other hmem => hevents other (List.mem_cons_of_mem event hmem))

end Refines

end Cutter

end GoogleCloudRust

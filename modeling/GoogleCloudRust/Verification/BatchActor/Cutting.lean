import GoogleCloudRust.Library.WeightedBatches
import GoogleCloudRust.Verification.BatchActor.Sequential

/-! # How batch actors cut messages into batches

The loops of both actors offer one message after the other to batches of a limited weight. The sizes
that they compare are exact as long as the single sizes are small. -/

namespace GoogleCloudRust.Publisher

variable {topic : String} {options : BatchingOptions} {batch : Batch} {msg : BundledMessage}

/-! ## Sizes -/

def limitsOf (topic : String) (options : BatchingOptions) : BatchLimits BundledMessage where
  count := options.messageCountThreshold.toNat
  capacity := options.byteThreshold.toNat
  base := topic.utf8ByteSize
  size := fun msg => Batch.messageSize msg.msg

def Small (msg : BundledMessage) : Prop := Batch.messageSize msg.msg < 2 ^ 30

structure SmallLimits (topic : String) (options : BatchingOptions) : Prop where
  topic : topic.utf8ByteSize < 2 ^ 30
  bytes : options.byteThreshold.toNat < 2 ^ 30

/-- The size of a batch is that of its topic and its messages. -/
structure Exact (topic : String) (options : BatchingOptions) (batch : Batch) : Prop where
  batchingOptions : batch.batchingOptions = options
  initialSize : batch.initialSize.toNat = topic.utf8ByteSize
  size : batch.messagesByteSize.toNat = (limitsOf topic options).weight batch.messages

theorem exact_new (hlimits : SmallLimits topic options) :
    Exact topic options (.new topic.utf8ByteSize.toUInt32 options) := by
  have htopic : topic.utf8ByteSize.toUInt32.toNat = topic.utf8ByteSize :=
    UInt32.toNat_ofNat_of_lt' (hlimits.topic.trans (by decide))
  exact ⟨rfl, htopic, htopic⟩

theorem Exact.drainMessages (h : Exact topic options batch) :
    Exact topic options batch.drainMessages.2 := ⟨h.batchingOptions, h.initialSize, h.initialSize⟩

/-- An open batch is empty or below its thresholds. -/
def IsOpen (topic : String) (options : BatchingOptions) (batch : Batch) : Prop :=
  batch.messages = [] ∨ ¬(limitsOf topic options).Full batch.messages

theorem IsOpen.weight_lt (h : IsOpen topic options batch) (hlimits : SmallLimits topic options) :
    (limitsOf topic options).weight batch.messages < 2 ^ 30 := by
  rcases h with hnil | hfull
  · rw [hnil]
    exact hlimits.topic
  · rw [BatchLimits.Full, not_or, Nat.not_le, Nat.not_le] at hfull
    exact hfull.2.trans hlimits.bytes

theorem IsOpen.length_lt (h : IsOpen topic options batch) : batch.messages.length + 1 < 2 ^ 32 := by
  rcases h with hnil | hfull
  · rw [hnil]
    decide
  · rw [BatchLimits.Full, not_or, Nat.not_le, Nat.not_le] at hfull
    exact Nat.lt_of_le_of_lt hfull.1 options.messageCountThreshold.toNat_lt

/-- Adding the size of a message does not overflow. -/
def AddsExactly (batch : Batch) (msg : BundledMessage) : Prop :=
  batch.messagesByteSize.toNat + Batch.messageSize msg.msg < 2 ^ 32

theorem Exact.addsExactly (h : Exact topic options batch) (hlimits : SmallLimits topic options)
    (hopen : IsOpen topic options batch) (hsmall : Small msg) : AddsExactly batch msg := by
  have hweight := hopen.weight_lt hlimits
  rw [← h.size] at hweight
  rw [AddsExactly]
  exact (Nat.add_lt_add hweight hsmall).trans (by decide)

theorem AddsExactly.toNat_eq (h : AddsExactly batch msg) :
    (batch.messagesByteSize + (Batch.messageSize msg.msg).toUInt32).toNat =
      batch.messagesByteSize.toNat + Batch.messageSize msg.msg := by
  have hsize : (Batch.messageSize msg.msg).toUInt32.toNat = Batch.messageSize msg.msg :=
    UInt32.toNat_ofNat_of_lt' (Nat.lt_of_le_of_lt (Nat.le_add_left _ _) h)
  rw [UInt32.toNat_add, hsize]
  exact Nat.mod_eq_of_lt h

theorem Exact.canAdd_iff (h : Exact topic options batch) (hadds : AddsExactly batch msg) :
    batch.canAdd msg = true ↔ (limitsOf topic options).Fits batch.messages msg := by
  rw [Batch.canAdd, decide_eq_true_iff, UInt32.le_iff_toNat_le, hadds.toNat_eq, h.size,
    h.batchingOptions]
  rfl

theorem Exact.push (h : Exact topic options batch) (hadds : AddsExactly batch msg) :
    Exact topic options (batch.push msg) := by
  refine ⟨h.batchingOptions, h.initialSize, ?_⟩
  have hsize := hadds.toNat_eq
  rw [h.size] at hsize
  refine hsize.trans ?_
  simp only [Batch.push, BatchLimits.weight, List.map_append, List.sum_append, List.map_cons,
    List.map_nil, List.sum_singleton]
  exact Nat.add_assoc _ _ _

theorem Exact.atThreshold_iff (h : Exact topic options batch)
    (hlength : batch.messages.length < 2 ^ 32) :
    batch.atThreshold = true ↔ (limitsOf topic options).Full batch.messages := by
  have hcount : batch.messages.length.toUInt32.toNat = batch.messages.length :=
    UInt32.toNat_ofNat_of_lt' hlength
  rw [Batch.atThreshold, Bool.or_eq_true, decide_eq_true_iff, decide_eq_true_iff,
    ge_iff_le, ge_iff_le, UInt32.le_iff_toNat_le, UInt32.le_iff_toNat_le, hcount, h.size,
    h.batchingOptions]
  rfl

/-! ## The loop over waiting messages -/

theorem isEmpty_iff : batch.isEmpty = true ↔ batch.messages = [] := List.isEmpty_iff

/-- The batches after some messages were moved to the open one. -/
def settle (full : List (List BundledMessage)) (move : Batch × List BundledMessage × Bool) :
    Batches BundledMessage :=
  if move.2.2 then Batches.close ⟨full, move.1.messages⟩ else ⟨full, move.1.messages⟩

/-- No addition in the loop of `move_to_batch_and_flush` overflows. -/
def LoopAddsExactly (batch : Batch) : List BundledMessage → Prop
  | [] => True
  | next :: pendingMsgs =>
      AddsExactly batch next ∧
        (¬(!batch.canAdd next && !batch.isEmpty) → ¬(batch.push next).atThreshold →
          LoopAddsExactly (batch.push next) pendingMsgs)

/-- What the loop leaves: the messages that still wait go on where it stopped. -/
structure Moved (topic : String) (options : BatchingOptions) (full : List (List BundledMessage))
    (messages pendingMsgs : List BundledMessage) (move : Batch × List BundledMessage × Bool) :
    Prop where
  exact : Exact topic options move.1
  within : (settle full move).Within (limitsOf topic options)
  suffix : move.2.1 <:+ pendingMsgs
  line : move.2.1.foldl (Batches.offer (limitsOf topic options)) (settle full move) =
    pendingMsgs.foldl (Batches.offer (limitsOf topic options)) ⟨full, messages⟩

theorem moveToBatch_moved (hlimits : SmallLimits topic options) (full : List (List BundledMessage))
    (pendingMsgs : List BundledMessage) (hsmall : ∀ msg ∈ pendingMsgs, Small msg)
    (hexact : Exact topic options batch)
    (hwithin : Batches.Within (limitsOf topic options) ⟨full, batch.messages⟩) :
    Moved topic options full batch.messages pendingMsgs
        (SequentialBatchActor.moveToBatch batch pendingMsgs) ∧
      LoopAddsExactly batch pendingMsgs := by
  induction pendingMsgs generalizing batch with
  | nil => exact ⟨⟨hexact, hwithin, List.suffix_rfl, rfl⟩, trivial⟩
  | cons next pendingMsgs ih =>
      have hopen : IsOpen topic options batch := hwithin.batch
      have hadds := hexact.addsExactly hlimits hopen (hsmall next (List.mem_cons_self ..))
      have hpushed := hexact.push hadds
      have hthreshold := hpushed.atThreshold_iff (by
        have hlength := hopen.length_lt
        rwa [Batch.push, List.length_append])
      rw [SequentialBatchActor.moveToBatch_cons]
      by_cases hclosing : (!batch.canAdd next && !batch.isEmpty) = true
      · -- The next message closes the batch before it is moved.
        have hfits : ¬(limitsOf topic options).Fits batch.messages next := by
          rw [← hexact.canAdd_iff hadds]
          simp only [Bool.and_eq_true, Bool.not_eq_true'] at hclosing
          simp [hclosing.1]
        rw [if_pos hclosing]
        refine ⟨⟨hexact, hwithin.close, List.suffix_rfl, ?_⟩, hadds, fun h => absurd hclosing h⟩
        exact congrArg (pendingMsgs.foldl (Batches.offer (limitsOf topic options)))
          (Batches.offer_close hfits)
      · have hoffer : Batches.offer (limitsOf topic options) ⟨full, batch.messages⟩ next =
            Batches.add (limitsOf topic options) ⟨full, batch.messages⟩ next := by
          apply Batches.offer_eq_add
          rw [← hexact.canAdd_iff hadds, ← isEmpty_iff]
          simpa [Bool.and_eq_true, or_comm, imp_iff_not_or] using hclosing
        have hnext := hwithin.offer next
        rw [hoffer, Batches.add] at hnext
        by_cases hfull : (batch.push next).atThreshold = true
        · have hclosed : (limitsOf topic options).Full (batch.messages ++ [next]) :=
            hthreshold.mp hfull
          rw [if_neg hclosing, if_pos hfull]
          rw [if_pos hclosed] at hnext
          refine ⟨⟨hpushed, hnext, List.suffix_cons next pendingMsgs, ?_⟩, hadds,
            fun _ h => absurd hfull h⟩
          rw [List.foldl_cons, hoffer, Batches.add, if_pos hclosed]
          rfl
        · have hopenNext : ¬(limitsOf topic options).Full (batch.messages ++ [next]) :=
            fun h => hfull (hthreshold.mpr h)
          rw [if_neg hopenNext] at hnext
          obtain ⟨hmoved, hloop⟩ :=
            ih (fun msg hmem => hsmall msg (List.mem_cons_of_mem next hmem)) hpushed hnext
          rw [if_neg hclosing, if_neg hfull]
          refine ⟨⟨hmoved.exact, hmoved.within, hmoved.suffix.trans (List.suffix_cons _ _), ?_⟩, hadds,
            fun _ _ => hloop⟩
          rw [List.foldl_cons, hoffer, Batches.add, if_neg hopenNext]
          exact hmoved.line

end GoogleCloudRust.Publisher

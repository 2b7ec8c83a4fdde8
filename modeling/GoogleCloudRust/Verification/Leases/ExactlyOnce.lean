import GoogleCloudRust.Model.Leases

/-! # Every exactly-once message gets one result

A message is under lease until a result is sent. One operation changes what is known about an
id, or sends the result and forgets it. -/

namespace GoogleCloudRust.Subscriber

/-! ## Entries of leases -/

namespace Leases

variable {ι : Type} {leases : Leases ι} {id ackId : String} {info : ι}

theorem mem_visit (order : List String) :
    (id, info) ∈ leases.visit order ↔ leases.underLease.lookup id = some info := by
  rw [visit, List.mem_insertionSort, ← Option.mem_def, AList.mem_lookup_iff, List.mem_map]
  constructor
  · rintro ⟨entry, hentry, heq⟩
    cases heq
    exact hentry
  · intro hentry
    exact ⟨⟨id, info⟩, hentry, rfl⟩

theorem visit_perm (order : List String) :
    ((leases.visit order).map Prod.fst).Perm leases.underLease.keys := by
  have hperm := List.perm_insertionSort (fun entry other : String × ι =>
    order.idxOf entry.1 ≤ order.idxOf other.1)
    (leases.underLease.entries.map fun entry => (entry.1, entry.2))
  refine (hperm.map Prod.fst).trans ?_
  rw [List.map_map]
  rfl

theorem nodup_visit (order : List String) : ((leases.visit order).map Prod.fst).Nodup :=
  (visit_perm order).nodup_iff.mpr leases.underLease.keys_nodup

theorem lookup_filter (keeps : ι → Bool) :
    (leases.filter keeps).underLease.lookup id = (leases.underLease.lookup id).filter keeps := by
  apply Option.ext
  intro info
  rw [← Option.mem_def, AList.mem_lookup_iff, Option.filter_eq_some_iff, ← Option.mem_def,
    AList.mem_lookup_iff, filter, List.mem_filter]

theorem lookup_insert_eq (info : ι) :
    (leases.underLease.insert ackId info).lookup id =
      if id = ackId then some info else leases.underLease.lookup id := by
  split_ifs with h
  · subst h
    exact AList.lookup_insert _
  · exact AList.lookup_insert_ne h

theorem lookup_erase_eq :
    (leases.underLease.erase ackId).lookup id =
      if id = ackId then none else leases.underLease.lookup id := by
  split_ifs with h
  · subst h
    exact AList.lookup_erase _ _
  · exact AList.lookup_erase_ne h

theorem lookup_modify (f : ι → ι) :
    (leases.modify ackId f).underLease.lookup id =
      if id = ackId then (leases.underLease.lookup id).map f else leases.underLease.lookup id := by
  unfold modify
  split
  · rename_i info hinfo
    simp only [lookup_insert_eq]
    split_ifs with h
    · rw [h, hinfo]
      rfl
    · rfl
  · rename_i hnone
    split_ifs with h
    · rw [h, hnone]
      rfl
    · rfl

/-- Updating many ids keeps those that are under lease. -/
theorem lookup_foldl_modify (f : ι → ι) (ackIds : List String) :
    ((ackIds.foldl (fun leases id => leases.modify id f) leases).underLease.lookup id).isSome =
      (leases.underLease.lookup id).isSome := by
  induction ackIds generalizing leases with
  | nil => rfl
  | cons first ackIds ih =>
      rw [List.foldl_cons, ih, lookup_modify]
      split_ifs with h
      · rw [Option.isSome_map]
      · rfl

theorem modify_lists (leases : Leases ι) (ackId : String) (f : ι → ι) :
    (leases.modify ackId f).toAck = leases.toAck ∧ (leases.modify ackId f).toNack = leases.toNack := by
  unfold modify
  split
  · exact ⟨rfl, rfl⟩
  · exact ⟨rfl, rfl⟩

theorem foldl_modify_lists (leases : Leases ι) (f : ι → ι) (ackIds : List String) :
    (ackIds.foldl (fun leases id => leases.modify id f) leases).toAck = leases.toAck ∧
      (ackIds.foldl (fun leases id => leases.modify id f) leases).toNack = leases.toNack := by
  induction ackIds generalizing leases with
  | nil => exact ⟨rfl, rfl⟩
  | cons id ackIds ih =>
      obtain ⟨hack, hnack⟩ := modify_lists leases id f
      obtain ⟨hacks, hnacks⟩ := ih (leases.modify id f)
      exact ⟨hacks.trans hack, hnacks.trans hnack⟩

end Leases

/-- In a list with distinct keys an id occurs at most once. -/
theorem filterMap_eq_singleton {ι β : Type} {entries : List (String × ι)} {id : String} {b : β}
    (hnodup : (entries.map Prod.fst).Nodup) :
    (entries.filterMap fun entry => if entry.1 = id then some b else none) =
      if id ∈ entries.map Prod.fst then [b] else [] := by
  induction entries with
  | nil => rfl
  | cons entry entries ih =>
      rw [List.map_cons, List.nodup_cons] at hnodup
      by_cases h : entry.1 = id
      · have hnone : id ∉ entries.map Prod.fst := h ▸ hnodup.1
        rw [List.filterMap_cons_some (b := b) (by simp [h]), ih hnodup.2, if_neg hnone,
          if_pos (by simp [h])]
      · have hmem : id ∈ (entry :: entries).map Prod.fst ↔ id ∈ entries.map Prod.fst := by
          rw [List.map_cons, List.mem_cons, or_iff_right (Ne.symm h)]
        rw [List.filterMap_cons_none (by simp [h]), ih hnodup.2, if_congr hmem rfl rfl]

namespace ExactlyOnceLeases

variable {leases : ExactlyOnceLeases} {id : String} {events : List Event} {event : Event}

theorem lookup_confirm (result : AckResult) :
    (leases.step (.confirm id result)).underLease.lookup id = none := by
  simp only [step, confirm]
  split
  · simp
  · assumption

/-! ## What an operation does to an id -/

/-- What has been sent on the result channel of a message. -/
def replies (sent : List (String × Reply)) (id : String) : List Reply :=
  sent.filterMap fun entry => if entry.1 = id then some entry.2 else none

inductive Change (id : String) (event : Event) :
    Option ExactlyOnceInfo → Option ExactlyOnceInfo → List Reply → Prop
  | keep (info : Option ExactlyOnceInfo) : Change id event info info []
  | add (info : Option ExactlyOnceInfo) (receiveTime : ℕ) (h : event = .add id receiveTime) :
      Change id event info (some { receiveTime := receiveTime }) []
  | update (info info' : ExactlyOnceInfo) : Change id event (some info) (some info') []
  | confirm (info : ExactlyOnceInfo) (result : AckResult) (h : event = .confirm id result) :
      Change id event (some info) none [.confirmed result]
  | expire (info : ExactlyOnceInfo) (now maxLease maxLeaseExtension : ℕ) (order : List String)
      (h : event = .retain now maxLease maxLeaseExtension order) (hstatus : info.status = .leased)
      (hheld : info.receiveTime + maxLease < now) :
      Change id event (some info) none [.leaseExpired]

/-- An operation changes an id and sends what it has to send. -/
def Changes (leases next : ExactlyOnceLeases) (event : Event) (id : String) : Prop :=
  ∃ sent, Change id event (leases.underLease.lookup id) (next.underLease.lookup id) sent ∧
    replies next.sent id = replies leases.sent id ++ sent

theorem replies_append (sent more : List (String × Reply)) (id : String) :
    replies (sent ++ more) id = replies sent id ++ replies more id := List.filterMap_append

theorem add_changes (ackId : String) (receiveTime : ℕ) :
    Changes leases (leases.step (.add ackId receiveTime)) (.add ackId receiveTime) id := by
  refine ⟨[], ?_, (List.append_nil _).symm⟩
  simp only [step, add, Leases.add, Leases.lookup_insert_eq]
  split_ifs with h
  · subst h
    exact .add _ receiveTime rfl
  · exact .keep _

theorem ack_changes (ackId : String) :
    Changes leases (leases.step (.ack ackId)) (.ack ackId) id := by
  simp only [step, ack]
  split
  · rename_i info hinfo
    refine ⟨[], ?_, (List.append_nil _).symm⟩
    simp only [Leases.lookup_insert_eq]
    split_ifs with h
    · subst h
      rw [hinfo]
      exact .update info _
    · exact .keep _
  · exact ⟨[], .keep _, (List.append_nil _).symm⟩

theorem nack_changes (ackId : String) :
    Changes leases (leases.step (.nack ackId)) (.nack ackId) id := by
  simp only [step, nack]
  split
  · rename_i info hinfo
    refine ⟨[], ?_, (List.append_nil _).symm⟩
    simp only [Leases.lookup_insert_eq]
    split_ifs with h
    · subst h
      rw [hinfo]
      exact .update info _
    · exact .keep _
  · exact ⟨[], .keep _, (List.append_nil _).symm⟩

theorem confirm_lists (leases : ExactlyOnceLeases) (ackId : String) (result : AckResult) :
    (leases.confirm ackId result).toAck = leases.toAck ∧
      (leases.confirm ackId result).toNack = leases.toNack := by
  unfold confirm
  split
  · exact ⟨rfl, rfl⟩
  · exact ⟨rfl, rfl⟩

theorem confirm_changes (ackId : String) (result : AckResult) :
    Changes leases (leases.step (.confirm ackId result)) (.confirm ackId result) id := by
  simp only [step, confirm]
  split
  · rename_i info hinfo
    by_cases h : id = ackId
    · subst h
      refine ⟨[.confirmed result], ?_, ?_⟩
      · simp only [Leases.lookup_erase_eq, if_true, hinfo]
        exact .confirm info result rfl
      · rw [replies_append]
        simp [replies]
    · refine ⟨[], ?_, ?_⟩
      · simp only [Leases.lookup_erase_eq, h, if_false]
        exact .keep _
      · rw [replies_append]
        simp [replies, Ne.symm h]
  · exact ⟨[], .keep _, (List.append_nil _).symm⟩

theorem updateLastExtension_changes (now : ℕ) (ackIds : List String) :
    Changes leases (leases.step (.updateLastExtension now ackIds))
      (.updateLastExtension now ackIds) id := by
  refine ⟨[], ?_, (List.append_nil _).symm⟩
  have hsome := @Leases.lookup_foldl_modify _ leases.toLeases id
    (fun info => { info with lastExtension := some now }) ackIds
  simp only [step, updateLastExtension]
  cases hbefore : leases.underLease.lookup id with
  | none =>
      rw [hbefore, Option.isSome_none, Option.isSome_eq_false_iff, Option.isNone_iff_eq_none]
        at hsome
      rw [hsome]
      exact .keep none
  | some info =>
      rw [hbefore, Option.isSome_some] at hsome
      obtain ⟨info', hafter⟩ := Option.isSome_iff_exists.mp hsome
      rw [hafter]
      exact .update info info'

theorem isExpired_eq_true {now maxLease : ℕ} {info : ExactlyOnceInfo} :
    isExpired now maxLease info = true ↔
      info.status = .leased ∧ info.receiveTime + maxLease < now := by
  unfold isExpired
  cases info.status with
  | leased => simp
  | acking => simp
  | nacking => simp

/-- The replies to the visited messages that satisfy a predicate. -/
theorem replies_visit (leases : ExactlyOnceLeases) (id : String) (order : List String)
    (p : String × ExactlyOnceInfo → Bool) (reply : Reply) :
    replies (((leases.visit order).filter p).map fun entry => (entry.1, reply)) id =
      if ∃ info, leases.underLease.lookup id = some info ∧ p (id, info) = true then [reply]
      else [] := by
  have hnodup : (((leases.visit order).filter p).map Prod.fst).Nodup :=
    (Leases.nodup_visit order).sublist (List.filter_sublist.map _)
  have hmem : id ∈ ((leases.visit order).filter p).map Prod.fst ↔
      ∃ info, leases.underLease.lookup id = some info ∧ p (id, info) = true := by
    simp only [List.mem_map, List.mem_filter, Prod.exists, exists_and_right, exists_eq_right,
      Leases.mem_visit]
  rw [replies, List.filterMap_map]
  simp only [Function.comp_def, filterMap_eq_singleton hnodup, hmem]

theorem retain_changes (now maxLease maxLeaseExtension : ℕ) (order : List String) :
    Changes leases (leases.step (.retain now maxLease maxLeaseExtension order))
      (.retain now maxLease maxLeaseExtension order) id := by
  have hreplies := replies_visit leases id order
    (fun entry => isExpired now maxLease entry.2) .leaseExpired
  simp only [Changes, step, retain, Leases.lookup_filter, replies_append, hreplies]
  cases hinfo : leases.underLease.lookup id with
  | none => exact ⟨[], .keep none, by simp⟩
  | some info =>
      by_cases hexpired : isExpired now maxLease info = true
      · obtain ⟨hstatus, hheld⟩ := isExpired_eq_true.mp hexpired
        refine ⟨[.leaseExpired], ?_, by simp [hexpired]⟩
        simp only [Option.filter_some, hexpired, Bool.not_true, Bool.false_eq_true, if_false]
        exact .expire info now maxLease maxLeaseExtension order rfl hstatus hheld
      · refine ⟨[], ?_, by simp [hexpired]⟩
        simp only [Option.filter_some, hexpired, Bool.not_false, if_true]
        exact .keep _

theorem step_changes (leases : ExactlyOnceLeases) (event : Event) (id : String) :
    Changes leases (leases.step event) event id := by
  cases event with
  | add ackId receiveTime => exact add_changes ackId receiveTime
  | ack ackId => exact ack_changes ackId
  | nack ackId => exact nack_changes ackId
  | confirm ackId result => exact confirm_changes ackId result
  | updateLastExtension now ackIds => exact updateLastExtension_changes now ackIds
  | drain => exact ⟨[], .keep _, (List.append_nil _).symm⟩
  | retain now maxLease maxLeaseExtension order =>
      exact retain_changes now maxLease maxLeaseExtension order

/-! ## Runs -/

def Event.added? : Event → Option String
  | add ackId _ => some ackId
  | _ => none

def added (events : List Event) : List String := events.filterMap Event.added?

/-- The message was added, and has not been confirmed since. -/
def Unconfirmed (events : List Event) (id : String) : Prop :=
  ∃ earlier receiveTime since, events = earlier ++ Event.add id receiveTime :: since ∧
    ∀ result, .confirm id result ∉ since

/-- Why a reply was sent. -/
inductive Cause (events : List Event) (id : String) : Reply → Prop
  | confirmed (before after : List Event) (result : AckResult)
      (h : events = before ++ Event.confirm id result :: after) (hfirst : Unconfirmed before id) :
      Cause events id (.confirmed result)
  | leaseExpired (before after : List Event) (now maxLease maxLeaseExtension : ℕ)
      (order : List String) (info : ExactlyOnceInfo)
      (h : events = before ++ Event.retain now maxLease maxLeaseExtension order :: after)
      (hinfo : (run before).underLease.lookup id = some info) (hstatus : info.status = .leased)
      (hheld : info.receiveTime + maxLease < now) : Cause events id .leaseExpired
  | shutdown (info : ExactlyOnceInfo) (h : (run events).underLease.lookup id = some info)
      (hfirst : Unconfirmed events id) : Cause events id .shutdown

theorem run_concat (events : List Event) (event : Event) :
    run (events ++ [event]) = (run events).step event := List.foldl_concat ..

/-- What is known about a message and what has been sent for it. -/
inductive Stage (events : List Event) (id : String) :
    Option ExactlyOnceInfo → List Reply → Prop
  | absent (h : id ∉ added events) : Stage events id none []
  | held (info : ExactlyOnceInfo) (h : id ∈ added events) : Stage events id (some info) []
  | answered (reply : Reply) (h : id ∈ added events) (hreply : reply ≠ .shutdown)
      (hcause : Cause events id reply) : Stage events id none [reply]

theorem Cause.concat {reply : Reply} (h : Cause events id reply) (hreply : reply ≠ .shutdown)
    (event : Event) : Cause (events ++ [event]) id reply := by
  cases h with
  | confirmed before after result h hfirst =>
      exact .confirmed before (after ++ [event]) result (by simp [h]) hfirst
  | leaseExpired before after now maxLease maxLeaseExtension order info h hinfo hstatus hheld =>
      exact .leaseExpired before (after ++ [event]) now maxLease maxLeaseExtension order info
        (by simp [h]) hinfo hstatus hheld
  | shutdown info h hfirst => exact absurd rfl hreply

theorem lookup_add (receiveTime : ℕ) :
    (leases.step (.add id receiveTime)).underLease.lookup id =
      some { receiveTime := receiveTime } := AList.lookup_insert _

theorem eq_add_of_added? (h : event.added? = some id) :
    ∃ receiveTime, event = .add id receiveTime := by
  cases event with
  | add ackId receiveTime =>
      cases h
      exact ⟨receiveTime, rfl⟩
  | _ => cases h

/-- A message under lease has not been confirmed. -/
theorem unconfirmed_of_lookup {info : ExactlyOnceInfo}
    (h : (run events).underLease.lookup id = some info) : Unconfirmed events id := by
  induction events using List.reverseRecOn generalizing info with
  | nil => simp [run] at h
  | append_singleton events event ih =>
      rw [run_concat] at h
      obtain ⟨sent, hchange, -⟩ := step_changes (run events) event id
      rw [h] at hchange
      have hextend : Unconfirmed events id → Unconfirmed (events ++ [event]) id := by
        rintro ⟨earlier, receiveTime, since, hevents, hsince⟩
        refine ⟨earlier, receiveTime, since ++ [event], by simp [hevents], ?_⟩
        intro result hmem
        obtain hold | hnew := List.mem_append.mp hmem
        · exact hsince result hold
        · rw [← List.mem_singleton.mp hnew, lookup_confirm] at h
          cases h
      generalize hbefore : (run events).underLease.lookup id = before at hchange
      cases hchange with
      | keep => exact hextend (ih hbefore)
      | add _ receiveTime hevent => exact ⟨events, receiveTime, [], by rw [hevent], by simp⟩
      | update info _ => exact hextend (ih hbefore)

theorem run_stage (hdistinct : (added events).Nodup) (id : String) :
    Stage events id ((run events).underLease.lookup id) (replies (run events).sent id) := by
  induction events using List.reverseRecOn with
  | nil => exact .absent (by simp [added])
  | append_singleton events event ih =>
      have hadded : added (events ++ [event]) = added events ++ event.added?.toList := by
        simp [added, List.filterMap_append, List.filterMap_cons]
        cases event.added? <;> rfl
      rw [hadded] at hdistinct
      have hstage := ih (List.nodup_append.mp hdistinct).1
      obtain ⟨sent, hchange, hreplies⟩ := step_changes (run events) event id
      rw [run_concat, hreplies]
      have hmem : id ∈ added events → id ∈ added (events ++ [event]) := by
        intro hid
        rw [hadded]
        exact List.mem_append_left _ hid
      have hnew : ∀ receiveTime, event = .add id receiveTime → id ∉ added events := by
        rintro receiveTime rfl hid
        exact (List.nodup_append.mp hdistinct).2.2 id hid id (by simp [Event.added?]) rfl
      have hstays : ((run events).step event).underLease.lookup id = none → id ∉ added events →
          id ∉ added (events ++ [event]) := by
        intro hnone hid hmem
        rw [hadded] at hmem
        obtain hold | hlast := List.mem_append.mp hmem
        · exact hid hold
        · obtain ⟨receiveTime, rfl⟩ := eq_add_of_added? (Option.mem_toList.mp hlast)
          rw [lookup_add] at hnone
          cases hnone
      generalize hbefore : (run events).underLease.lookup id = before at hstage hchange
      generalize ((run events).step event).underLease.lookup id = after at hchange hstays
      generalize replies (run events).sent id = earlier at hstage
      cases hstage with
      | absent hid =>
          cases hchange with
          | keep => exact .absent (hstays rfl hid)
          | add _ receiveTime hevent => exact .held _ (by rw [hadded, hevent]; simp [Event.added?])
      | held info hid =>
          cases hchange with
          | keep => exact .held info (hmem hid)
          | add _ receiveTime hevent => exact absurd hid (hnew receiveTime hevent)
          | update _ info' => exact .held info' (hmem hid)
          | confirm _ result hevent =>
              refine .answered _ (hmem hid) (by simp) ?_
              exact .confirmed events [] result (by rw [hevent]) (unconfirmed_of_lookup hbefore)
          | expire _ now maxLease maxLeaseExtension order hevent hstatus hheld =>
              refine .answered _ (hmem hid) (by simp) ?_
              exact .leaseExpired events [] now maxLease maxLeaseExtension order info
                (by rw [hevent]) hbefore hstatus hheld
      | answered reply hid hreply hcause =>
          cases hchange with
          | keep => exact .answered reply (hmem hid) hreply (hcause.concat hreply event)
          | add _ receiveTime hevent => exact absurd hid (hnew receiveTime hevent)

/-! ## Extending leases -/

/-- A message whose lease is to be extended. -/
def NeedsExtension (now maxLeaseExtension : ℕ) (info : ExactlyOnceInfo) : Prop :=
  (info.status = .leased ∨ info.status = .acking) ∧
    ¬ ∃ i, info.lastExtension = some i ∧
      now + extendPeriod + extendBuffer < i + maxLeaseExtension

/-- The batches have the right sizes, and hold the messages that remain and are to be extended. -/
structure Extends (leases : ExactlyOnceLeases) (now maxLeaseExtension : ℕ)
    (batches : List (List String)) : Prop where
  sizes : ∀ batch ∈ batches, 1 ≤ batch.length ∧ batch.length ≤ 1000
  nodup : batches.flatten.Nodup
  mem : ∀ id, id ∈ batches.flatten ↔ ∃ info, leases.underLease.lookup id = some info ∧
    NeedsExtension now maxLeaseExtension info

/-- Whether an entry is pushed. -/
def pushes (now maxLease maxLeaseExtension : ℕ) (entry : String × ExactlyOnceInfo) : Bool :=
  !isExpired now maxLease entry.2 && entry.2.status ≠ .nacking &&
    !outlasts now maxLeaseExtension entry.2.lastExtension

theorem pushes_eq_true {now maxLease maxLeaseExtension : ℕ} {info : ExactlyOnceInfo} :
    pushes now maxLease maxLeaseExtension (id, info) = true ↔
      isExpired now maxLease info = false ∧ NeedsExtension now maxLeaseExtension info := by
  have hstatus : info.status ≠ .nacking ↔ info.status = .leased ∨ info.status = .acking := by
    cases info.status <;> simp
  have houtlasts : outlasts now maxLeaseExtension info.lastExtension = false ↔
      ¬ ∃ i, info.lastExtension = some i ∧
        now + extendPeriod + extendBuffer < i + maxLeaseExtension := by
    rw [outlasts, ← Bool.not_eq_true, Option.any_eq_true]
    simp
  simp only [pushes, Bool.and_eq_true, Bool.not_eq_true', decide_eq_true_eq, hstatus, houtlasts,
    NeedsExtension, and_assoc]

theorem retain_extends (leases : ExactlyOnceLeases) (now maxLease maxLeaseExtension : ℕ)
    (order : List String) :
    Extends (leases.retain now maxLease maxLeaseExtension order).2 now maxLeaseExtension
      (leases.retain now maxLease maxLeaseExtension order).1 := by
  let pushed := ((leases.visit order).filter (pushes now maxLease maxLeaseExtension)).map Prod.fst
  have hbatches : (leases.retain now maxLease maxLeaseExtension order).1 =
      Batches.chunks maxIdsPerRpc pushed := by
    refine congrArg Batches.finish (Batches.foldl_push ?_ (leases.visit order))
    rintro batches ⟨ackId, info⟩
    unfold pushes
    cases hexpired : isExpired now maxLease info with
    | true => simp
    | false =>
        cases houtlasts : outlasts now maxLeaseExtension info.lastExtension <;>
          cases hstatus : info.status <;> simp
  have hflatten : (leases.retain now maxLease maxLeaseExtension order).1.flatten = pushed := by
    rw [hbatches, Batches.flatten_chunks]
  refine ⟨?_, ?_, ?_⟩
  · rw [hbatches]
    exact Batches.length_chunks (by decide) pushed
  · rw [hflatten]
    exact (Leases.nodup_visit order).sublist (List.filter_sublist.map _)
  · intro id
    have hafter : (leases.retain now maxLease maxLeaseExtension order).2.underLease.lookup id =
        (leases.underLease.lookup id).filter fun info => !isExpired now maxLease info :=
      Leases.lookup_filter _
    rw [hflatten, hafter]
    simp only [pushed, List.mem_map, List.mem_filter, Prod.exists, exists_and_right,
      exists_eq_right, Leases.mem_visit, pushes_eq_true, Option.filter_eq_some_iff,
      Bool.not_eq_true']
    simp only [and_assoc]

/-! ## Results -/

structure SendsOneResult (events : List Event) (order : List String) : Prop where
  once : ∀ id ∈ added events, ∃ reply,
    replies ((run events).evictAndDrain order).2.2 id = [reply] ∧ Cause events id reply
  retain : ∀ before after now maxLease maxLeaseExtension order,
    events = before ++ Event.retain now maxLease maxLeaseExtension order :: after →
    Extends (run (before ++ [.retain now maxLease maxLeaseExtension order])) now maxLeaseExtension
      ((run before).retain now maxLease maxLeaseExtension order).1

theorem replies_evictAndDrain (order : List String) :
    replies (leases.evictAndDrain order).2.2 id = replies leases.sent id ++
      if (leases.underLease.lookup id).isSome then [.shutdown] else [] := by
  have hreplies := replies_visit leases id order (fun _ => true) .shutdown
  rw [List.filter_true] at hreplies
  rw [evictAndDrain, replies_append, List.map_map]
  simp only [Function.comp_def, hreplies]
  cases leases.underLease.lookup id with
  | none => simp
  | some info => simp

theorem run_sendsOneResult (events : List Event) (order : List String)
    (hdistinct : (added events).Nodup) : SendsOneResult events order := by
  constructor
  · intro id hid
    have hstage := run_stage hdistinct id
    rw [replies_evictAndDrain]
    generalize hinfo : (run events).underLease.lookup id = info at hstage ⊢
    generalize replies (run events).sent id = sent at hstage ⊢
    cases hstage with
    | absent hnot => exact absurd hid hnot
    | held info _ => exact ⟨.shutdown, rfl, .shutdown info hinfo (unconfirmed_of_lookup hinfo)⟩
    | answered reply _ hreply hcause => exact ⟨reply, rfl, hcause⟩
  · intro before after now maxLease maxLeaseExtension order hevents
    rw [run_concat]
    exact retain_extends (run before) now maxLease maxLeaseExtension order

/-- Three messages: one is confirmed, one expires and one is evicted. -/
theorem run_sendsOneResult_three :
    SendsOneResult [.add "one" 0, .add "two" 1, .add "three" 9, .ack "one", .drain,
      .confirm "one" (.ok ()), .confirm "one" (.error .leaseExpired), .nack "three",
      .retain 20 10 60 []] ["three"] :=
  run_sendsOneResult _ ["three"] (by decide)

end ExactlyOnceLeases

end GoogleCloudRust.Subscriber

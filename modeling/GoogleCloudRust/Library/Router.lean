import GoogleCloudRust.Library.Barrier

/-! # Routers over workers with barriers

A router takes commands from one queue. Items go to one worker, a barrier goes to all of
them and is answered when those that got it have acknowledged it. -/

namespace GoogleCloudRust.Barrier

/-- `flushes` are the barriers that have been sent to the workers, with the number of workers at
that time; `issued` is the next stamp. -/
structure Router (α : Type*) where
  commands : List (Command α)
  issued : ℕ
  workers : List (Worker α)
  published : List α
  flushes : List (ℕ × ℕ)
  answered : List ℕ

variable {α : Type*} {stamp : α → ℕ}

/-- A worker with an empty inbox. -/
def Worker.fresh (α : Type*) : Worker α := ⟨[], 0, 0, none, []⟩

/-- The worker has passed a barrier. -/
def Worker.HasPassed (w : Worker α) (id : ℕ) : Prop := id ∈ w.acknowledged ∨ w.waiting = 0

namespace Router

inductive Step (stamp : α → ℕ) (r : Router α) : Router α → Prop
  | publish (a : α) (hstamp : stamp a = r.issued) :
      Step stamp r { r with
        commands := r.commands ++ [.item a]
        issued := r.issued + 1
        published := r.published ++ [a] }
  | flush : Step stamp r { r with
      commands := r.commands ++ [.barrier r.issued]
      issued := r.issued + 1 }
  | other : Step stamp r { r with commands := r.commands ++ [.other] }
  | spawn : Step stamp r { r with workers := r.workers ++ [Worker.fresh α] }
  | route (a : α) (commands : List (Command α)) (index : ℕ) (w : Worker α)
      (h : r.commands = .item a :: commands) (hworker : r.workers[index]? = some w) :
      Step stamp r { r with
        commands := commands
        workers := r.workers.set index (w.put (.item a)) }
  | broadcast (id : ℕ) (commands : List (Command α)) (h : r.commands = .barrier id :: commands) :
      Step stamp r { r with
        commands := commands
        workers := r.workers.map fun w => w.put (.barrier id)
        flushes := r.flushes ++ [(id, r.workers.length)] }
  | tell (commands : List (Command α)) (index : ℕ) (w : Worker α)
      (h : r.commands = .other :: commands) (hworker : r.workers[index]? = some w) :
      Step stamp r { r with
        commands := commands
        workers := r.workers.set index (w.put .other) }
  | drop (commands : List (Command α)) (h : r.commands = .other :: commands) :
      Step stamp r { r with commands := commands }
  | work (index : ℕ) (w w' : Worker α) (hworker : r.workers[index]? = some w)
      (hsteps : Steps w w') : Step stamp r { r with workers := r.workers.set index w' }
  | answer (index id count : ℕ) (h : r.flushes[index]? = some (id, count))
      (hpassed : ∀ w ∈ r.workers.take count, w.HasPassed id) :
      Step stamp r { r with
        flushes := r.flushes.eraseIdx index
        answered := r.answered ++ [id] }

abbrev Steps (stamp : α → ℕ) : Router α → Router α → Prop := Relation.ReflTransGen (Step stamp)

/-- The stamps of what has not been routed. -/
def later (stamp : α → ℕ) (r : Router α) : List ℕ :=
  r.commands.filterMap (Command.stamp? stamp) ++ [r.issued]

def queued (r : Router α) : Multiset α := ↑(r.commands.filterMap Command.item?)

def consumed (r : Router α) : Multiset α := (r.workers.map Worker.consumed).sum

def waiting (r : Router α) : Multiset α := r.queued + (r.workers.map Worker.waiting).sum

/-- Every item from before the barrier has been consumed, apart from those of the first
workers. -/
structure Passed (stamp : α → ℕ) (r : Router α) (id count : ℕ) : Prop where
  later : ∀ n ∈ r.later stamp, id < n
  workers : ∀ w ∈ r.workers.drop count, ∀ a ∈ w.waiting, id < stamp a

structure Inv (stamp : α → ℕ) (r : Router α) : Prop where
  sorted : (r.later stamp).Pairwise (· < ·)
  ordered : ∀ w ∈ r.workers, Ordered stamp (r.later stamp) w
  flushes : ∀ flush ∈ r.flushes, Passed stamp r flush.1 flush.2
  answered : ∀ id ∈ r.answered, Passed stamp r id 0
  conserved : r.queued + (r.workers.map Worker.items).sum = ↑r.published
  stamps : (r.published.map stamp ++ [r.issued]).Pairwise (· < ·)

variable {r r' : Router α}

/-! ## Changes to the workers -/

theorem sum_map_set {β : Type*} [AddCommMonoid β] {f : Worker α → β} {workers : List (Worker α)}
    {index : ℕ} {w w' : Worker α} {extra : β} (hworker : workers[index]? = some w)
    (h : f w' = f w + extra) :
    ((workers.set index w').map f).sum = (workers.map f).sum + extra := by
  induction workers generalizing index with
  | nil => cases hworker
  | cons first workers ih =>
      cases index with
      | zero =>
          obtain rfl := Option.some.inj hworker
          simp only [List.set_cons_zero, List.map_cons, List.sum_cons, h]
          rw [add_right_comm]
      | succ index =>
          simp only [List.set_cons_succ, List.map_cons, List.sum_cons]
          rw [ih (by simpa using hworker), add_assoc]

theorem mem_sum_map {f : Worker α → Multiset α} {workers : List (Worker α)} {a : α}
    (h : a ∈ (workers.map f).sum) : ∃ w ∈ workers, a ∈ f w := by
  induction workers with
  | nil => simp at h
  | cons first workers ih =>
      rw [List.map_cons, List.sum_cons] at h
      obtain hfirst | hrest := Multiset.mem_add.mp h
      · exact ⟨first, List.mem_cons_self, hfirst⟩
      · obtain ⟨w, hw, ha⟩ := ih hrest
        exact ⟨w, List.mem_cons_of_mem _ hw, ha⟩

theorem mem_drop_set {workers : List (Worker α)} {index count : ℕ} {w w' found : Worker α}
    (hworker : workers[index]? = some w) (h : found ∈ (workers.set index w').drop count) :
    found ∈ workers.drop count ∨ (found = w' ∧ w ∈ workers.drop count) := by
  rw [List.drop_set] at h
  split_ifs at h with hlt
  · exact .inl h
  · obtain hold | rfl := List.mem_or_eq_of_mem_set h
    · exact .inl hold
    · refine .inr ⟨rfl, List.mem_iff_getElem?.mpr ⟨index - count, ?_⟩⟩
      rw [List.getElem?_drop, Nat.add_sub_cancel' (Nat.le_of_not_lt hlt), hworker]

theorem waiting_put_item (w : Worker α) (a : α) : (w.put (.item a)).waiting = w.waiting + {a} := by
  simp only [Worker.waiting, Worker.queued, Worker.put, List.filterMap_append,
    ← Multiset.coe_add, add_right_comm]
  rfl

/-- A command without an item. -/
theorem waiting_put {command : Command α} (w : Worker α) (h : command.item? = none) :
    (w.put command).waiting = w.waiting := by
  simp only [Worker.waiting, Worker.queued, Worker.put, List.filterMap_append,
    List.filterMap_cons_none h, List.filterMap_nil, List.append_nil]

theorem queued_concat {commands : List (Command α)} {command : Command α} :
    (↑((commands ++ [command]).filterMap Command.item?) : Multiset α) =
      ↑(commands.filterMap Command.item?) + ↑command.item?.toList := by
  rw [List.filterMap_append, ← Multiset.coe_add]
  cases command with
  | item a => rfl
  | barrier id => rfl
  | other => rfl

theorem ordered_fresh {later : List ℕ} (h : later.Pairwise (· < ·)) :
    Ordered stamp later (Worker.fresh α) where
  sorted := h
  waiting := by simp [Worker.fresh]
  later := by simp [Worker.fresh]

theorem Passed.of_subset {id count : ℕ} (h : Passed stamp r id count)
    (hlater : r'.later stamp ⊆ r.later stamp) (hworkers : r'.workers = r.workers) :
    Passed stamp r' id count :=
  ⟨fun n hn => h.later n (hlater hn), hworkers ▸ h.workers⟩

/-- One worker has changed. -/
theorem Passed.set {id count index : ℕ} {w w' : Worker α} (h : Passed stamp r id count)
    (hlater : r'.later stamp ⊆ r.later stamp) (hworker : r.workers[index]? = some w)
    (hworkers : r'.workers = r.workers.set index w')
    (hwaiting : ∀ a ∈ w'.waiting, a ∈ w.waiting ∨ stamp a ∈ r.later stamp) :
    Passed stamp r' id count := by
  refine ⟨fun n hn => h.later n (hlater hn), ?_⟩
  intro found hfound a ha
  rw [hworkers] at hfound
  obtain hold | ⟨rfl, hw⟩ := mem_drop_set hworker hfound
  · exact h.workers found hold a ha
  · obtain hbefore | hnew := hwaiting a ha
    · exact h.workers w hw a hbefore
    · exact h.later _ hnew

/-- A new stamp is issued. -/
theorem Passed.issue {id count : ℕ} (h : Passed stamp r id count)
    (hlater : r'.later stamp = r.later stamp ++ [r.issued + 1])
    (hworkers : r'.workers = r.workers) : Passed stamp r' id count := by
  refine ⟨?_, hworkers ▸ h.workers⟩
  rw [hlater]
  exact lt_issue h.later

/-! ## Steps -/

theorem Inv.issue (h : Inv stamp r) {command : Command α}
    (hcommand : command.stamp? stamp = some r.issued) {published : List α}
    (hpublished : (↑published : Multiset α) = ↑r.published + ↑command.item?.toList)
    (hstamps : (published.map stamp ++ [r.issued + 1]).Pairwise (· < ·)) :
    Inv stamp { r with
      commands := r.commands ++ [command]
      issued := r.issued + 1
      published := published } := by
  have hlater : later stamp { r with
      commands := r.commands ++ [command]
      issued := r.issued + 1
      published := published } = r.later stamp ++ [r.issued + 1] := by
    simp [later, hcommand]
  exact {
    sorted := by
      rw [hlater]
      exact pairwise_issue h.sorted
    ordered := by
      rw [hlater]
      exact fun w hw => (h.ordered w hw).issue
    flushes := fun flush hflush => (h.flushes flush hflush).issue hlater rfl
    answered := fun id hid => (h.answered id hid).issue hlater rfl
    conserved := by
      rw [hpublished, ← h.conserved, queued, queued, queued_concat]
      exact add_right_comm _ _ _
    stamps := hstamps }

/-- A command without a stamp is sent or taken away. -/
theorem Inv.of_commands (h : Inv stamp r) {commands : List (Command α)}
    (hstamps : commands.filterMap (Command.stamp? stamp) =
      r.commands.filterMap (Command.stamp? stamp))
    (hitems : commands.filterMap Command.item? = r.commands.filterMap Command.item?) :
    Inv stamp { r with commands := commands } := by
  have hlater : later stamp { r with commands := commands } = r.later stamp := by
    rw [later, hstamps, later]
  have hsubset : later stamp { r with commands := commands } ⊆ r.later stamp := by
    rw [hlater]
    exact List.Subset.refl _
  exact {
    sorted := hlater ▸ h.sorted
    ordered := fun w hw => hlater ▸ h.ordered w hw
    flushes := fun flush hflush => (h.flushes flush hflush).of_subset hsubset rfl
    answered := fun id hid => (h.answered id hid).of_subset hsubset rfl
    conserved := by
      rw [← h.conserved, queued, queued, hitems]
    stamps := h.stamps }

theorem Inv.spawn (h : Inv stamp r) :
    Inv stamp { r with workers := r.workers ++ [Worker.fresh α] } := by
  have hpassed : ∀ {id count : ℕ}, Passed stamp r id count →
      Passed stamp { r with workers := r.workers ++ [Worker.fresh α] } id count := by
    intro id count hpassed
    refine ⟨hpassed.later, ?_⟩
    intro found hfound a ha
    rw [List.drop_append] at hfound
    obtain hold | hnew := List.mem_append.mp hfound
    · exact hpassed.workers found hold a ha
    · obtain rfl := List.mem_singleton.mp (List.mem_of_mem_drop hnew)
      simp [Worker.fresh, Worker.waiting, Worker.queued] at ha
  exact {
    sorted := h.sorted
    ordered := by
      intro w hw
      obtain hold | hnew := List.mem_append.mp hw
      · exact h.ordered w hold
      · obtain rfl := List.mem_singleton.mp hnew
        exact ordered_fresh h.sorted
    flushes := fun flush hflush => hpassed (h.flushes flush hflush)
    answered := fun id hid => hpassed (h.answered id hid)
    conserved := by
      rw [← h.conserved]
      simp [Worker.fresh, Worker.items, Worker.waiting, Worker.queued, queued]
    stamps := h.stamps }

/-- One worker changes, and the commands may become fewer. -/
theorem Inv.set (h : Inv stamp r) (extra : Multiset α) {commands : List (Command α)} {index : ℕ}
    {w w' : Worker α} (hworker : r.workers[index]? = some w)
    (hlater : (later stamp { r with commands := commands }).Sublist (r.later stamp))
    (hordered : Ordered stamp (later stamp { r with commands := commands }) w')
    (hwaiting : ∀ a ∈ w'.waiting, a ∈ w.waiting ∨ stamp a ∈ r.later stamp)
    (hitems : w'.items = w.items + extra)
    (hqueued : r.queued = ↑(commands.filterMap Command.item?) + extra) :
    Inv stamp { r with commands := commands, workers := r.workers.set index w' } where
  sorted := h.sorted.sublist hlater
  ordered := by
    intro found hfound
    obtain hold | rfl := List.mem_or_eq_of_mem_set hfound
    · exact (h.ordered found hold).of_sublist hlater
    · exact hordered
  flushes := fun flush hflush => (h.flushes flush hflush).set hlater.subset hworker rfl hwaiting
  answered := fun id hid => (h.answered id hid).set hlater.subset hworker rfl hwaiting
  conserved := by
    rw [← h.conserved, hqueued, sum_map_set hworker hitems, ← add_assoc]
    exact add_right_comm _ _ _
  stamps := h.stamps

theorem Inv.route (h : Inv stamp r) {a : α} {commands : List (Command α)} {index : ℕ}
    {w : Worker α} (hcommands : r.commands = .item a :: commands)
    (hworker : r.workers[index]? = some w) :
    Inv stamp { r with
      commands := commands
      workers := r.workers.set index (w.put (.item a)) } := by
  have hlater : r.later stamp = stamp a :: later stamp { r with commands := commands } := by
    simp [later, hcommands, Command.stamp?]
  have hordered := h.ordered w (List.mem_of_getElem? hworker)
  rw [hlater] at hordered
  refine h.set {a} hworker ?_ (hordered.put rfl) ?_ ?_ ?_
  · rw [hlater]
    exact List.sublist_cons_self _ _
  · intro b hb
    rw [waiting_put_item, Multiset.mem_add, Multiset.mem_singleton] at hb
    refine hb.imp_right ?_
    rintro rfl
    rw [hlater]
    exact List.mem_cons_self
  · rw [Worker.items, waiting_put_item, Worker.items]
    exact add_right_comm _ _ _
  · rw [queued, hcommands, List.filterMap_cons_some
      (show Command.item? (.item a) = some a from rfl), ← Multiset.cons_coe,
      ← Multiset.singleton_add, add_comm]

theorem Inv.tell (h : Inv stamp r) {index : ℕ} {w : Worker α}
    (hworker : r.workers[index]? = some w) :
    Inv stamp { r with workers := r.workers.set index (w.put .other) } := by
  have hordered := h.ordered w (List.mem_of_getElem? hworker)
  have hsame : (w.put .other).waiting = w.waiting := waiting_put w rfl
  refine h.set 0 hworker (List.Sublist.refl _) hordered.put_other ?_ ?_ ?_
  · intro a ha
    rw [hsame] at ha
    exact .inl ha
  · rw [Worker.items, hsame, Worker.items, add_zero]
    rfl
  · rw [add_zero, queued]

theorem Inv.work (h : Inv stamp r) {index : ℕ} {w w' : Worker α}
    (hworker : r.workers[index]? = some w) (hsteps : Barrier.Steps w w') :
    Inv stamp { r with workers := r.workers.set index w' } := by
  have hordered := h.ordered w (List.mem_of_getElem? hworker)
  refine h.set 0 hworker (List.Sublist.refl _) (hordered.steps hsteps) ?_ ?_ ?_
  · intro a ha
    exact .inl (Multiset.mem_of_le hsteps.waiting_le ha)
  · rw [hsteps.items_eq, add_zero]
  · rw [add_zero, queued]

theorem Inv.broadcast (h : Inv stamp r) {id : ℕ} {commands : List (Command α)}
    (hcommands : r.commands = .barrier id :: commands) :
    Inv stamp { r with
      commands := commands
      workers := r.workers.map fun w => w.put (.barrier id)
      flushes := r.flushes ++ [(id, r.workers.length)] } := by
  have hlater : r.later stamp = id :: later stamp { r with commands := commands } := by
    simp [later, hcommands, Command.stamp?]
  have hsorted := h.sorted
  rw [hlater, List.pairwise_cons] at hsorted
  have hwaiting : ∀ w : Worker α, (w.put (.barrier id)).waiting = w.waiting :=
    fun w => waiting_put w rfl
  have hpassed : ∀ {other count : ℕ}, Passed stamp r other count →
      Passed stamp { r with
        commands := commands
        workers := r.workers.map fun w => w.put (.barrier id)
        flushes := r.flushes ++ [(id, r.workers.length)] } other count := by
    intro other count hpassed
    constructor
    · intro n hn
      refine hpassed.later n ?_
      rw [hlater]
      exact List.mem_cons_of_mem _ hn
    · intro found hfound a ha
      rw [← List.map_drop] at hfound
      obtain ⟨w, hw, rfl⟩ := List.mem_map.mp hfound
      rw [hwaiting] at ha
      exact hpassed.workers w hw a ha
  exact {
    sorted := hsorted.2
    ordered := by
      intro found hfound
      obtain ⟨w, hw, rfl⟩ := List.mem_map.mp hfound
      have hordered := h.ordered w hw
      rw [hlater] at hordered
      exact hordered.put rfl
    flushes := by
      intro flush hflush
      obtain hold | hnew := List.mem_append.mp hflush
      · exact hpassed (h.flushes flush hold)
      · obtain rfl := List.mem_singleton.mp hnew
        refine ⟨hsorted.1, ?_⟩
        intro found hfound
        rw [List.drop_eq_nil_of_le (by simp)] at hfound
        cases hfound
    answered := fun other hother => hpassed (h.answered other hother)
    conserved := by
      have hitems : (fun w : Worker α => (w.put (.barrier id)).items) = Worker.items := by
        funext w
        rw [Worker.items, hwaiting, Worker.items]
        rfl
      rw [← h.conserved, List.map_map, queued, queued, hcommands, List.filterMap_cons_none rfl]
      exact congrArg (fun f => _ + (List.map f r.workers).sum) hitems
    stamps := h.stamps }

theorem Inv.answer (h : Inv stamp r) {index id count : ℕ}
    (hflush : r.flushes[index]? = some (id, count))
    (hpassed : ∀ w ∈ r.workers.take count, w.HasPassed id) :
    Inv stamp { r with
      flushes := r.flushes.eraseIdx index
      answered := r.answered ++ [id] } where
  sorted := h.sorted
  ordered := h.ordered
  flushes := fun flush hmem =>
    let hold := h.flushes flush (List.mem_of_mem_eraseIdx hmem)
    ⟨hold.later, hold.workers⟩
  answered := by
    intro other hother
    obtain hold | hnew := List.mem_append.mp hother
    · exact ⟨(h.answered other hold).later, (h.answered other hold).workers⟩
    · obtain rfl := List.mem_singleton.mp hnew
      have hold := h.flushes _ (List.mem_of_getElem? hflush)
      refine ⟨hold.later, ?_⟩
      intro w hw a ha
      rw [List.drop_zero, ← List.take_append_drop count r.workers] at hw
      obtain hfirst | hrest := List.mem_append.mp hw
      · obtain hacknowledged | hnone := hpassed w hfirst
        · exact (h.ordered w (List.mem_of_mem_take hfirst)).waiting other hacknowledged a ha
        · rw [hnone] at ha
          cases Multiset.notMem_zero a ha
      · exact hold.workers w hrest a ha
  conserved := h.conserved
  stamps := h.stamps

theorem Inv.step (h : Inv stamp r) (hstep : Step stamp r r') : Inv stamp r' := by
  cases hstep with
  | publish a hstamp =>
      have hcommand : Command.stamp? stamp (.item a) = some r.issued := congrArg some hstamp
      refine h.issue hcommand ?_ ?_
      · rw [← Multiset.coe_add]
        rfl
      · rw [List.map_append, List.map_singleton, hstamp]
        exact pairwise_issue h.stamps
  | flush =>
      refine h.issue rfl (by simp [Command.item?]) ?_
      have hissued := pairwise_issue h.stamps
      refine hissued.sublist (List.Sublist.append_right ?_ _)
      exact List.sublist_append_left _ _
  | other =>
      refine h.of_commands ?_ ?_
      · simp [Command.stamp?, List.filterMap_cons]
      · simp [Command.item?, List.filterMap_cons]
  | spawn => exact h.spawn
  | route a commands index w hcommands hworker => exact h.route hcommands hworker
  | broadcast id commands hcommands => exact h.broadcast hcommands
  | tell commands index w hcommands hworker =>
      refine (h.tell hworker).of_commands ?_ ?_
      · rw [hcommands, List.filterMap_cons_none rfl]
      · rw [hcommands, List.filterMap_cons_none rfl]
  | drop commands hcommands =>
      refine h.of_commands ?_ ?_
      · rw [hcommands, List.filterMap_cons_none rfl]
      · rw [hcommands, List.filterMap_cons_none rfl]
  | work index w w' hworker hsteps => exact h.work hworker hsteps
  | answer index id count hflush hpassed => exact h.answer hflush hpassed

theorem Inv.steps (h : Inv stamp r) (hsteps : Steps stamp r r') : Inv stamp r' := by
  induction hsteps with
  | refl => exact h
  | tail _ hstep ih => exact ih.step hstep

/-! ## What the invariant says -/

theorem Inv.waiting_add_consumed (h : Inv stamp r) : r.waiting + r.consumed = ↑r.published := by
  rw [← h.conserved, waiting, consumed, add_assoc, ← List.sum_map_add]
  rfl

theorem Inv.nodup (h : Inv stamp r) : (r.published.map stamp).Nodup :=
  (List.pairwise_append.mp h.stamps).1.imp Nat.ne_of_lt

/-- What was published before a barrier that has been answered is consumed. -/
theorem Inv.consumed_of_answered [DecidableEq α] (h : Inv stamp r) {id : ℕ} (hid : id ∈ r.answered)
    {a : α} (ha : a ∈ r.published) (hlt : stamp a < id) : r.consumed.count a = 1 := by
  have hpassed := h.answered id hid
  have hnotWaiting : a ∉ r.waiting := by
    intro hwaiting
    obtain hqueued | hworkers := Multiset.mem_add.mp hwaiting
    · obtain ⟨command, hmem, hitem⟩ := List.mem_filterMap.mp (Multiset.mem_coe.mp hqueued)
      cases command with
      | item b =>
          cases hitem
          have hlater := hpassed.later (stamp a)
            (List.mem_append_left _ (List.mem_filterMap.mpr ⟨_, hmem, rfl⟩))
          exact absurd hlt (Nat.lt_asymm hlater)
      | barrier other => cases hitem
      | other => cases hitem
    · obtain ⟨w, hw, hmem⟩ := mem_sum_map hworkers
      exact absurd hlt (Nat.lt_asymm (hpassed.workers w (by simpa using hw) a hmem))
  have hcount : (r.waiting + r.consumed).count a = 1 := by
    rw [h.waiting_add_consumed, Multiset.coe_count]
    exact List.count_eq_one_of_mem (List.Nodup.of_map stamp h.nodup) ha
  rwa [Multiset.count_add, Multiset.count_eq_zero_of_notMem hnotWaiting, zero_add] at hcount

end Router

end GoogleCloudRust.Barrier

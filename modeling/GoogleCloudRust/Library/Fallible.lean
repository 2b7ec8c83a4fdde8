import Mathlib.Logic.Basic

/-! # Fallible computations over a state

A failing computation keeps the state it had reached, as code that mutates
through a reference and returns early does. -/

namespace GoogleCloudRust

abbrev Fallible (ε σ : Type) := ExceptT ε (StateM σ)

namespace Fallible

variable {ε ε' σ α β : Type}

/-- Outcome and final state. -/
def exec (m : Fallible ε σ α) (s : σ) : Except ε α × σ := (ExceptT.run m).run s

/-- An outcome that does not touch the state. -/
def ofResult (result : Except ε α) : Fallible ε σ α := ExceptT.mk (pure result)

@[simp] theorem exec_pure (a : α) (s : σ) :
    exec (pure a : Fallible ε σ α) s = (.ok a, s) := rfl

@[simp] theorem exec_ofResult (result : Except ε α) (s : σ) :
    exec (ofResult result) s = (result, s) := rfl

@[simp] theorem exec_modify (f : σ → σ) (s : σ) :
    exec (modify f : Fallible ε σ Unit) s = (.ok (), f s) := rfl

@[simp] theorem exec_get (s : σ) : exec (get : Fallible ε σ σ) s = (.ok s, s) := rfl

@[simp] theorem exec_set (t s : σ) : exec (set t : Fallible ε σ Unit) s = (.ok (), t) := rfl

@[simp] theorem exec_throw (e : ε) (s : σ) :
    exec (throw e : Fallible ε σ α) s = (.error e, s) := rfl

theorem exec_bind (m : Fallible ε σ α) (f : α → Fallible ε σ β) (s : σ) :
    exec (m >>= f) s =
      match exec m s with
      | (.ok a, t) => exec (f a) t
      | (.error e, t) => (.error e, t) := by
  simp only [exec, ExceptT.run_bind, StateT.run_bind]
  rcases h : (ExceptT.run m).run s with ⟨r, t⟩
  cases r <;> rfl

theorem exec_bind_ok {m : Fallible ε σ α} {f : α → Fallible ε σ β} {s t : σ} {a : α}
    (h : exec m s = (.ok a, t)) : exec (m >>= f) s = exec (f a) t := by
  rw [exec_bind, h]

theorem exec_bind_error {m : Fallible ε σ α} {f : α → Fallible ε σ β} {s t : σ} {e : ε}
    (h : exec m s = (.error e, t)) : exec (m >>= f) s = (.error e, t) := by
  rw [exec_bind, h]

/-- A sequence succeeds only if both halves do. -/
theorem exec_bind_eq_ok {m : Fallible ε σ α} {f : α → Fallible ε σ β} {s u : σ} {b : β} :
    exec (m >>= f) s = (.ok b, u) ↔
      ∃ a t, exec m s = (.ok a, t) ∧ exec (f a) t = (.ok b, u) := by
  rw [exec_bind]
  rcases h : exec m s with ⟨r, t⟩
  cases r with
  | ok a =>
      constructor
      · intro hf
        exact ⟨a, t, rfl, hf⟩
      · rintro ⟨a', t', heq, hf⟩
        cases heq
        exact hf
  | error e => simp

theorem exec_tryCatch (m : Fallible ε σ α) (handler : ε → Fallible ε σ α) (s : σ) :
    exec (tryCatch m handler) s =
      match exec m s with
      | (.ok a, t) => (.ok a, t)
      | (.error e, t) => exec (handler e) t := by
  change ((ExceptT.tryCatch m handler).run).run s = _
  simp only [exec, ExceptT.tryCatch, ExceptT.run_mk, StateT.run_bind]
  rcases h : (ExceptT.run m).run s with ⟨r, t⟩
  have hm : (StateT.run m s : Id _) = (r, t) := h
  rw [hm]
  cases r <;> rfl

/-! ## Append-only computations -/

variable {γ : Type}

/-- The outcome from an empty buffer. -/
def outcome (m : Fallible ε (List γ) α) : Except ε α := (exec m []).1

/-- What is written to an empty buffer. -/
def word (m : Fallible ε (List γ) α) : List γ := (exec m []).2

/-- The computation does not look at its buffer and only appends to it. -/
structure Appends (m : Fallible ε (List γ) α) : Prop where
  exec_eq : ∀ buffer, exec m buffer = (outcome m, buffer ++ word m)

namespace Appends

theorem ofResult (result : Except ε α) : Appends (Fallible.ofResult result : Fallible ε (List γ) α) :=
  ⟨fun buffer => by simp [outcome, word]⟩

theorem pure (a : α) : Appends (Pure.pure a : Fallible ε (List γ) α) :=
  ⟨fun buffer => by simp [outcome, word]⟩

theorem ofModify {f : List γ → List γ} (h : ∀ buffer, f buffer = buffer ++ f []) :
    Appends (modify f : Fallible ε (List γ) Unit) :=
  ⟨fun buffer => by
    change (Except.ok (), f buffer) = (Except.ok (), buffer ++ f [])
    rw [← h]⟩

theorem bind {m : Fallible ε (List γ) α} {f : α → Fallible ε (List γ) β} (hm : Appends m)
    (hf : ∀ a, Appends (f a)) : Appends (m >>= f) := by
  refine ⟨fun buffer => ?_⟩
  have hbuffer := hm.exec_eq buffer
  simp only [outcome, word] at hbuffer ⊢
  rcases h : exec m [] with ⟨r, w⟩
  rw [h] at hbuffer
  cases r with
  | ok a =>
      rw [exec_bind_ok hbuffer, exec_bind_ok h, (hf a).exec_eq (buffer ++ w), (hf a).exec_eq w,
        List.append_assoc]
  | error e => rw [exec_bind_error hbuffer, exec_bind_error h]

end Appends

/-- A successful sequence of append-only computations writes both words. -/
theorem outcome_bind_eq_ok {m : Fallible ε (List γ) α} {f : α → Fallible ε (List γ) β} {b : β}
    (hf : ∀ a, Appends (f a)) (h : outcome (m >>= f) = .ok b) :
    ∃ a, outcome m = .ok a ∧ outcome (f a) = .ok b ∧ word (m >>= f) = word m ++ word (f a) := by
  simp only [outcome, word] at h ⊢
  rcases hm : exec m [] with ⟨r, w⟩
  cases r with
  | ok a =>
      rw [exec_bind_ok hm, (hf a).exec_eq w] at h ⊢
      exact ⟨a, rfl, h, rfl⟩
  | error e =>
      rw [exec_bind_error hm] at h
      cases h

/-! ## Atomic computations -/

/-- A success whose result counts as one. -/
def commits (counts : α → Bool) : Except ε α → Bool
  | .ok a => counts a
  | .error _ => false

/-- The computation does not look at its buffer, appends to it when its result counts, and leaves it
as it was otherwise. -/
def Atomic (counts : α → Bool) (m : Fallible ε (List γ) α) : Prop :=
  ∃ (result : Except ε α) (written : List γ), ∀ buffer,
    exec m buffer = (result, if commits counts result then buffer ++ written else buffer)

namespace Atomic

variable {counts : α → Bool}

theorem ofResult {result : Except ε α} (h : commits counts result = false) :
    Atomic counts (Fallible.ofResult result : Fallible ε (List γ) α) :=
  ⟨result, [], fun buffer => by rw [exec_ofResult, h]; rfl⟩

theorem pure {a : α} (h : counts a = false) :
    Atomic counts (Pure.pure a : Fallible ε (List γ) α) :=
  ⟨.ok a, [], fun buffer => by rw [exec_pure, commits, h]; rfl⟩

/-- An atomic computation behind a check. -/
theorem check {result : Except ε β} {f : β → Fallible ε (List γ) α}
    (hf : ∀ b, Atomic counts (f b)) : Atomic counts (Fallible.ofResult result >>= f) := by
  cases result with
  | ok b =>
      obtain ⟨result, written, h⟩ := hf b
      exact ⟨result, written, fun buffer => by rw [exec_bind_ok (exec_ofResult _ buffer), h]⟩
  | error e =>
      exact ⟨.error e, [], fun buffer => by rw [exec_bind_error (exec_ofResult _ buffer)]; rfl⟩

/-- An append-only computation is atomic when its failures cut the buffer back. -/
theorem rollback {m : Fallible ε (List γ) α} (hm : Appends m) :
    Atomic (fun _ => true) (do
      let initial ← get
      tryCatch m fun error => do
        modify fun buffer => buffer.take initial.length
        throw error) := by
  refine ⟨outcome m, word m, fun buffer => ?_⟩
  rw [exec_bind_ok (exec_get buffer), exec_tryCatch, hm.exec_eq buffer]
  cases hresult : outcome m with
  | ok a => rfl
  | error e =>
      simp only [exec_bind, exec_modify, exec_throw, commits, List.take_left']
      simp

/-- Reporting success after an atomic computation. -/
theorem report {m : Fallible ε (List γ) α} (hm : Atomic (fun _ => true) m) :
    Atomic id (do
      let _ ← m
      return true : Fallible ε (List γ) Bool) := by
  obtain ⟨result, written, h⟩ := hm
  cases result with
  | ok a => exact ⟨.ok true, written, fun buffer => by rw [exec_bind_ok (h buffer)]; rfl⟩
  | error e => exact ⟨.error e, [], fun buffer => by rw [exec_bind_error (h buffer)]; rfl⟩

/-- A computation that is tried when the one before it does nothing. -/
theorem orElse {m n : Fallible ε (List γ) Bool} (hm : Atomic id m) (hn : Atomic id n) :
    Atomic id (do if ← m then return true else n) := by
  obtain ⟨result, written, h⟩ := hm
  obtain ⟨result', written', h'⟩ := hn
  cases result with
  | error e => exact ⟨.error e, [], fun buffer => by rw [exec_bind_error (h buffer)]; rfl⟩
  | ok wrote =>
      cases wrote with
      | true => exact ⟨.ok true, written, fun buffer => by rw [exec_bind_ok (h buffer)]; rfl⟩
      | false =>
          exact ⟨result', written', fun buffer => by rw [exec_bind_ok (h buffer)]; exact h' buffer⟩

end Atomic

/-! ## Agreement of two computations -/

/-- Both outcomes are failures, or both are successes with related results. -/
def SameOutcome (R : α → β → Prop) : Except ε α → Except ε' β → Prop
  | .ok a, .ok b => R a b
  | .error _, .error _ => True
  | _, _ => False

theorem SameOutcome.refl (result : Except ε α) : SameOutcome Eq result result := by
  cases result with
  | ok a => rfl
  | error e => trivial

theorem SameOutcome.bind {α' β' : Type} {R : α → α' → Prop} {S : β → β' → Prop}
    {r : Except ε α} {r' : Except ε' α'} {f : α → Except ε β} {f' : α' → Except ε' β'}
    (h : SameOutcome R r r') (hf : ∀ a a', R a a' → SameOutcome S (f a) (f' a')) :
    SameOutcome S (r >>= f) (r' >>= f') := by
  cases r with
  | ok a =>
      cases r' with
      | ok a' => exact hf a a' h
      | error e' => exact h.elim
  | error e =>
      cases r' with
      | ok a' => exact h.elim
      | error e' => trivial

/-- From every state the two computations fail together or succeed together with
related results, and they leave the same state behind. -/
def Agrees (R : α → β → Prop) (m : Fallible ε σ α) (m' : Fallible ε' σ β) : Prop :=
  ∀ s, SameOutcome R (exec m s).1 (exec m' s).1 ∧ (exec m s).2 = (exec m' s).2

theorem Agrees.refl (m : Fallible ε σ α) : Agrees Eq m m := by
  intro s
  exact ⟨SameOutcome.refl _, rfl⟩

theorem Agrees.of_eq {m m' : Fallible ε σ α} (h : m = m') : Agrees Eq m m' :=
  h ▸ Agrees.refl m

theorem Agrees.ofResult {R : α → β → Prop} {r : Except ε α} {r' : Except ε' β}
    (h : SameOutcome R r r') :
    Agrees R (ofResult r : Fallible ε σ α) (ofResult r' : Fallible ε' σ β) :=
  fun _ => ⟨h, rfl⟩

/-- Agreement is a congruence for sequencing. -/
theorem Agrees.bind {α' β' : Type} {R : α → α' → Prop} {S : β → β' → Prop}
    {m : Fallible ε σ α} {m' : Fallible ε' σ α'} {f : α → Fallible ε σ β}
    {f' : α' → Fallible ε' σ β'} (hm : Agrees R m m')
    (hf : ∀ a a', R a a' → Agrees S (f a) (f' a')) : Agrees S (m >>= f) (m' >>= f') := by
  intro s
  obtain ⟨hout, hstate⟩ := hm s
  rcases h : exec m s with ⟨r, t⟩
  rcases h' : exec m' s with ⟨r', t'⟩
  rw [h, h'] at hout hstate
  obtain rfl : t = t' := hstate
  cases r with
  | ok a =>
      cases r' with
      | ok a' =>
          rw [exec_bind_ok h, exec_bind_ok h']
          exact hf a a' hout t
      | error e' => exact hout.elim
  | error e =>
      cases r' with
      | ok a' => exact hout.elim
      | error e' =>
          rw [exec_bind_error h, exec_bind_error h']
          exact ⟨trivial, rfl⟩

/-- Undoing on failure keeps agreement. -/
theorem Agrees.tryCatch {R : α → β → Prop} {m : Fallible ε σ α} {m' : Fallible ε' σ β}
    {handler : ε → Fallible ε σ α} {handler' : ε' → Fallible ε' σ β} (hm : Agrees R m m')
    (hh : ∀ e e', Agrees R (handler e) (handler' e')) :
    Agrees R (MonadExcept.tryCatch m handler) (MonadExcept.tryCatch m' handler') := by
  intro s
  obtain ⟨hout, hstate⟩ := hm s
  rw [exec_tryCatch, exec_tryCatch]
  rcases h : exec m s with ⟨r, t⟩
  rcases h' : exec m' s with ⟨r', t'⟩
  rw [h, h'] at hout hstate
  obtain rfl : t = t' := hstate
  cases r with
  | ok a =>
      cases r' with
      | ok a' => exact ⟨hout, rfl⟩
      | error e' => exact hout.elim
  | error e =>
      cases r' with
      | ok a' => exact hout.elim
      | error e' => exact hh e e' t

/-! ## One result after the other -/

theorem exists_mapM_eq_ok {f : α → Except ε β} {xs : List α} :
    (∃ ys, xs.mapM f = .ok ys) ↔ ∀ x ∈ xs, ∃ y, f x = .ok y := by
  induction xs with
  | nil => simp [pure, Except.pure]
  | cons x xs ih =>
      rw [List.forall_mem_cons, ← ih]
      cases hx : f x with
      | error e => simp [hx, bind, Except.bind]
      | ok y =>
          cases hxs : xs.mapM f with
          | error e => simp [hx, hxs, bind, Except.bind]
          | ok ys => simp [hx, hxs, bind, Except.bind, pure, Except.pure]

theorem mapM_cons_error {f : α → Except ε β} {x : α} {e : ε} (h : f x = .error e) (xs : List α) :
    (x :: xs).mapM f = .error e := by
  simp [h, bind, Except.bind]

theorem mapM_cons_ok {f : α → Except ε β} {x : α} {y : β} (h : f x = .ok y) {xs : List α} {e : ε} :
    (x :: xs).mapM f = .error e ↔ xs.mapM f = .error e := by
  cases hxs : xs.mapM f with
  | error e' => simp [h, hxs, bind, Except.bind]
  | ok ys => simp [h, hxs, bind, Except.bind, pure, Except.pure]

/-- Nothing before fails in another way. -/
theorem mapM_of_error {f : α → Except ε β} {before after : List α} {x : α} {e : ε}
    (hbefore : ∀ b ∈ before, (∃ y, f b = .ok y) ∨ f b = .error e) (hx : f x = .error e) :
    (before ++ x :: after).mapM f = .error e := by
  induction before with
  | nil => exact mapM_cons_error hx after
  | cons b before ih =>
      obtain ⟨hb, hrest⟩ := List.forall_mem_cons.mp hbefore
      rcases hb with ⟨y, hy⟩ | herror
      · exact (mapM_cons_ok hy).mpr (ih hrest)
      · exact mapM_cons_error herror _

/-- The error is the first one. -/
theorem mapM_eq_error {f : α → Except ε β} {xs : List α} {e : ε} :
    xs.mapM f = .error e ↔ ∃ before x after, xs = before ++ x :: after ∧
      (∀ b ∈ before, ∃ y, f b = .ok y) ∧ f x = .error e := by
  constructor
  · intro h
    induction xs with
    | nil => cases h
    | cons x xs ih =>
        cases hx : f x with
        | error e' =>
            rw [mapM_cons_error hx, Except.error.injEq] at h
            subst h
            exact ⟨[], x, xs, rfl, by simp, hx⟩
        | ok y =>
            obtain ⟨before, a, after, rfl, hbefore, ha⟩ := ih ((mapM_cons_ok hx).mp h)
            exact ⟨x :: before, a, after, rfl, List.forall_mem_cons.mpr ⟨⟨y, hx⟩, hbefore⟩, ha⟩
  · rintro ⟨before, x, after, rfl, hbefore, hx⟩
    exact mapM_of_error (fun b hb => .inl (hbefore b hb)) hx

end Fallible

end GoogleCloudRust

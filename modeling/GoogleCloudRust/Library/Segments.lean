import Mathlib.Algebra.Order.Ring.Int
import Mathlib.Data.List.Infix

/-! # Parts of a list, sent by their offsets

A sender cuts a list into consecutive pieces; a receiver holds a prefix of the list and takes a
piece that begins in it or at its end, dropping what it has already. -/

namespace GoogleCloudRust.Segments

variable {α : Type*} {content piece held : List α} {start stop reach : ℕ}

/-- The pieces are consecutive parts of `content`, from `start` to `stop`. -/
def Tiles (content : List α) : ℕ → List (ℤ × List α) → ℕ → Prop
  | start, [], stop => start = stop
  | start, (offset, piece) :: pieces, stop =>
      offset = start ∧ piece <+: content.drop start ∧
        Tiles content (start + piece.length) pieces stop

/-- A receiver that holds `held` elements can take the pieces in turn, and then holds `reach`. -/
def Feeds (content : List α) : ℕ → List (ℤ × List α) → ℕ → Prop
  | held, [], reach => held = reach
  | held, (offset, piece) :: pieces, reach =>
      ∃ start : ℕ, offset = start ∧ start ≤ held ∧ piece <+: content.drop start ∧
        Feeds content (max held (start + piece.length)) pieces reach

/-- What a receiver holds after it was given a piece. -/
def accept (held : List α) (offset : ℤ) (piece : List α) : List α :=
  if offset ≤ held.length then held ++ piece.drop (held.length - offset).toNat else held

/-! ## Growing content -/

theorem prefix_drop_append (h : piece <+: content.drop start) (more : List α) :
    piece <+: (content ++ more).drop start := by
  rw [List.drop_append]
  exact h.trans (List.prefix_append _ _)

theorem Tiles.append_content {pieces : List (ℤ × List α)} (h : Tiles content start pieces stop)
    (more : List α) : Tiles (content ++ more) start pieces stop := by
  induction pieces generalizing start with
  | nil => exact h
  | cons head pieces ih =>
    obtain ⟨hoffset, hpiece, htail⟩ := h
    exact ⟨hoffset, prefix_drop_append hpiece more, ih htail⟩

theorem Feeds.append_content {pieces : List (ℤ × List α)} {held : ℕ}
    (h : Feeds content held pieces reach) (more : List α) :
    Feeds (content ++ more) held pieces reach := by
  induction pieces generalizing held with
  | nil => exact h
  | cons head pieces ih =>
    obtain ⟨start, hoffset, hle, hpiece, htail⟩ := h
    exact ⟨start, hoffset, hle, prefix_drop_append hpiece more, ih htail⟩

/-! ## Consecutive pieces -/

theorem Tiles.le {pieces : List (ℤ × List α)} (h : Tiles content start pieces stop) :
    start ≤ stop := by
  induction pieces generalizing start with
  | nil => exact Nat.le_of_eq h
  | cons head pieces ih =>
    have hle := ih h.2.2
    omega

theorem Tiles.concat {pieces : List (ℤ × List α)} (h : Tiles content start pieces stop)
    (hpiece : piece <+: content.drop stop) :
    Tiles content start (pieces ++ [((stop : ℤ), piece)]) (stop + piece.length) := by
  induction pieces generalizing start with
  | nil =>
    obtain rfl : start = stop := h
    exact ⟨rfl, hpiece, rfl⟩
  | cons head pieces ih => exact ⟨h.1, h.2.1, ih h.2.2⟩

/-- The end of a piece. -/
def endOf (piece : ℤ × List α) : ℤ := piece.1 + piece.2.length

/-- The pieces beyond `size`, with the first one trimmed. -/
def trim (size : ℤ) (pieces : List (ℤ × List α)) : List (ℤ × List α) :=
  match pieces.dropWhile (endOf · ≤ size) with
  | [] => []
  | (offset, piece) :: pieces =>
      if offset < size then (size, piece.drop (size - offset).toNat) :: pieces
      else (offset, piece) :: pieces

/-- Trimmed pieces are consecutive from where they were trimmed. -/
theorem Tiles.trim {pieces : List (ℤ × List α)} (h : Tiles content start pieces stop) {size : ℕ}
    (hge : start ≤ size) (hle : size ≤ stop) :
    Tiles content size (Segments.trim size pieces) stop := by
  induction pieces generalizing start with
  | nil =>
    obtain rfl : start = stop := h
    exact Nat.le_antisymm hle hge
  | cons head pieces ih =>
    obtain ⟨offset, piece⟩ := head
    obtain ⟨rfl, hpiece, htail⟩ := h
    by_cases hend : start + piece.length ≤ size
    · have hdrop : Segments.trim size (((start : ℤ), piece) :: pieces) =
          Segments.trim (size : ℤ) pieces := by
        have : endOf ((start : ℤ), piece) ≤ size := by simp only [endOf]; omega
        simp [Segments.trim, this]
      rw [hdrop]
      exact ih htail hend
    · have hkeep : ¬endOf ((start : ℤ), piece) ≤ size := by simp only [endOf]; omega
      simp only [Segments.trim, List.dropWhile_cons, hkeep, decide_false, Bool.false_eq_true,
        ↓reduceIte]
      split
      case isTrue hlt =>
        have hsub : ((size : ℤ) - start).toNat = size - start := by omega
        refine ⟨rfl, ?_, ?_⟩
        · rw [hsub, show content.drop size = (content.drop start).drop (size - start) by
            rw [List.drop_drop]; congr 1; omega]
          exact hpiece.drop (size - start)
        · have hlength : size + (piece.drop (size - start)).length = start + piece.length := by
            rw [List.length_drop]
            omega
          rw [hsub, hlength]
          exact htail
      case isFalse hnot =>
        obtain rfl : start = size := by omega
        exact ⟨rfl, hpiece, htail⟩

/-- A receiver that holds everything before the pieces can take them. -/
theorem Tiles.feeds {pieces : List (ℤ × List α)} (h : Tiles content start pieces stop) {held : ℕ}
    (hge : start ≤ held) (hle : held ≤ stop) : Feeds content held pieces stop := by
  induction pieces generalizing start held with
  | nil =>
    obtain rfl : start = stop := h
    exact Nat.le_antisymm hle hge
  | cons head pieces ih =>
    obtain ⟨hoffset, hpiece, htail⟩ := h
    have hstop := htail.le
    exact ⟨start, hoffset, hge, hpiece, ih htail (by omega) (by omega)⟩

/-! ## Taking pieces -/

theorem Feeds.le {pieces : List (ℤ × List α)} {held : ℕ} (h : Feeds content held pieces reach) :
    held ≤ reach := by
  induction pieces generalizing held with
  | nil => exact Nat.le_of_eq h
  | cons head pieces ih =>
    obtain ⟨start, -, -, -, htail⟩ := h
    have hle := ih htail
    omega

theorem Feeds.concat {pieces : List (ℤ × List α)} {held : ℕ} (h : Feeds content held pieces reach)
    (hpiece : piece <+: content.drop reach) :
    Feeds content held (pieces ++ [((reach : ℤ), piece)]) (reach + piece.length) := by
  induction pieces generalizing held with
  | nil =>
    obtain rfl : held = reach := h
    exact ⟨held, rfl, Nat.le_refl held, hpiece, Nat.max_eq_right (Nat.le_add_right _ _)⟩
  | cons head pieces ih =>
    obtain ⟨start, hoffset, hle, hhead, htail⟩ := h
    exact ⟨start, hoffset, hle, hhead, ih htail⟩

/-- The first pieces can be taken without the others. -/
theorem Feeds.of_append {pieces more : List (ℤ × List α)} {held : ℕ}
    (h : Feeds content held (pieces ++ more) reach) :
    ∃ middle ≤ reach, Feeds content held pieces middle := by
  induction pieces generalizing held with
  | nil => exact ⟨held, h.le, rfl⟩
  | cons head pieces ih =>
    obtain ⟨start, hoffset, hle, hhead, htail⟩ := h
    obtain ⟨middle, hmiddle, hfeeds⟩ := ih htail
    exact ⟨middle, hmiddle, start, hoffset, hle, hhead, hfeeds⟩

theorem accept_spec (hheld : held <+: content) (hle : start ≤ held.length)
    (hpiece : piece <+: content.drop start) :
    accept held start piece <+: content ∧
      (accept held start piece).length = max held.length (start + piece.length) := by
  have hsub : ((held.length : ℤ) - start).toNat = held.length - start := by omega
  rw [accept, if_pos (by omega), hsub]
  constructor
  · obtain ⟨rest, rfl⟩ := hheld
    rw [List.prefix_append_right_inj]
    have hdrop := hpiece.drop (held.length - start)
    rw [List.drop_drop, show start + (held.length - start) = held.length by omega] at hdrop
    simpa using hdrop
  · rw [List.length_append, List.length_drop]
    omega

end GoogleCloudRust.Segments

import Mathlib.Computability.Language
import Mathlib.Data.Nat.Find

/-! # Greedy matching

A pattern is a list of languages. In a greedy match every piece of the pattern takes the longest
word that leaves the rest of the text to the rest of the pattern; a scan takes the longest word at
once and never takes it back. -/

namespace GoogleCloudRust.Greedy

variable {α : Type*} {text part rest : List α} {parts : List (List α)}

/-- The greedy match of the whole text, part by part. -/
def Match : List (Language α) → List (List α) → List α → Prop
  | [], [], text => text = []
  | piece :: pieces, part :: parts, text =>
      ∃ rest, text = part ++ rest ∧ part ∈ piece ∧ Match pieces parts rest ∧
        ∀ part' rest', text = part' ++ rest' → part' ∈ piece → rest' ∈ pieces.prod →
          part'.length ≤ part.length
  | _, _, _ => False

theorem Match.length_eq {pieces : List (Language α)} (h : Match pieces parts text) :
    parts.length = pieces.length := by
  induction pieces generalizing parts text with
  | nil =>
      cases parts with
      | nil => rfl
      | cons part parts => exact h.elim
  | cons piece pieces ih =>
      cases parts with
      | nil => exact h.elim
      | cons part parts =>
          obtain ⟨rest, -, -, hrest, -⟩ := h
          rw [List.length_cons, List.length_cons, ih hrest]

theorem Match.flatten {pieces : List (Language α)} (h : Match pieces parts text) :
    parts.flatten = text := by
  induction pieces generalizing parts text with
  | nil =>
      cases parts with
      | nil => exact h.symm
      | cons part parts => exact h.elim
  | cons piece pieces ih =>
      cases parts with
      | nil => exact h.elim
      | cons part parts =>
          obtain ⟨rest, rfl, -, hrest, -⟩ := h
          rw [List.flatten_cons, ih hrest]

/-- A matched text is a word of the concatenation. -/
theorem Match.mem_prod {pieces : List (Language α)} (h : Match pieces parts text) :
    text ∈ pieces.prod := by
  induction pieces generalizing parts text with
  | nil =>
      cases parts with
      | nil => exact h
      | cons part parts => exact h.elim
  | cons piece pieces ih =>
      cases parts with
      | nil => exact h.elim
      | cons part parts =>
          obtain ⟨rest, rfl, hpart, hrest, -⟩ := h
          rw [List.prod_cons]
          exact Language.append_mem_mul hpart (ih hrest)

/-- Every word of the concatenation has a greedy match. -/
theorem exists_match {pieces : List (Language α)} (h : text ∈ pieces.prod) :
    ∃ parts, Match pieces parts text := by
  classical
  induction pieces generalizing text with
  | nil => exact ⟨[], h⟩
  | cons piece pieces ih =>
      rw [List.prod_cons, Language.mem_mul] at h
      obtain ⟨first, hfirst, second, hsecond, rfl⟩ := h
      -- The longest first part that leaves a word to the other pieces.
      let Leaves (n : ℕ) := ∃ part rest, first ++ second = part ++ rest ∧ part ∈ piece ∧
        rest ∈ pieces.prod ∧ part.length = n
      have hbound : ∀ {n}, Leaves n → n ≤ (first ++ second).length := by
        rintro n ⟨part, rest, htext, -, -, rfl⟩
        rw [htext, List.length_append]
        exact Nat.le_add_right _ _
      have hleaves : Leaves first.length := ⟨first, second, rfl, hfirst, hsecond, rfl⟩
      obtain ⟨part, rest, htext, hpart, hrest, hlength⟩ :=
        Nat.findGreatest_spec (hbound hleaves) hleaves
      obtain ⟨parts, hparts⟩ := ih hrest
      refine ⟨part :: parts, rest, htext, hpart, hparts, ?_⟩
      intro part' rest' htext' hpart' hrest'
      have hleaves' : Leaves part'.length := ⟨part', rest', htext', hpart', hrest', rfl⟩
      rw [hlength]
      exact Nat.le_findGreatest (hbound hleaves') hleaves'

/-! ## Scans -/

/-- How a word of a language is taken from the front of a text. -/
structure Scanner (α : Type*) where
  language : Language α
  scan : List α → Option (List α × List α)
  sound : ∀ {text part rest}, scan text = some (part, rest) →
    text = part ++ rest ∧ part ∈ language

abbrev languages (scanners : List (Scanner α)) : List (Language α) :=
  scanners.map Scanner.language

/-- The parts that the scanners take one after the other, and what is left. -/
def scanAll : List (Scanner α) → List α → Option (List (List α) × List α)
  | [], text => some ([], text)
  | scanner :: scanners, text => do
      let (part, rest) ← scanner.scan text
      let (parts, left) ← scanAll scanners rest
      return (part :: parts, left)

/-- Where a word leaves a match to the other pieces, the scan takes one that is as long and leaves
a match as well. -/
def Safe : List (Scanner α) → Prop
  | [] => True
  | scanner :: scanners =>
      (∀ part rest, part ∈ scanner.language → rest ∈ (languages scanners).prod →
        ∃ part' rest', scanner.scan (part ++ rest) = some (part', rest') ∧
          part.length ≤ part'.length ∧ rest' ∈ (languages scanners).prod) ∧
      Safe scanners

theorem scanAll_cons {scanner : Scanner α} {scanners : List (Scanner α)} {left : List α} :
    scanAll (scanner :: scanners) text = some (parts, left) ↔
      ∃ part rest parts', scanner.scan text = some (part, rest) ∧
        scanAll scanners rest = some (parts', left) ∧ parts = part :: parts' := by
  simp only [scanAll, Option.bind_eq_bind, Option.bind_eq_some_iff, Option.pure_def,
    Option.some.injEq, Prod.mk.injEq, Prod.exists]
  constructor
  · rintro ⟨part, rest, hscan, parts', left', hrest, rfl, rfl⟩
    exact ⟨part, rest, parts', hscan, hrest, rfl⟩
  · rintro ⟨part, rest, parts', hscan, hrest, rfl⟩
    exact ⟨part, rest, hscan, parts', left, hrest, rfl, rfl⟩

theorem scanAll_length {scanners : List (Scanner α)} {left : List α}
    (h : scanAll scanners text = some (parts, left)) : parts.length = scanners.length := by
  induction scanners generalizing text parts with
  | nil =>
      obtain ⟨rfl, -⟩ := Prod.mk.inj (Option.some.inj h)
      rfl
  | cons scanner scanners ih =>
      obtain ⟨part, rest, parts', -, hrest, rfl⟩ := scanAll_cons.mp h
      rw [List.length_cons, List.length_cons, ih hrest]

theorem scanAll_flatten {scanners : List (Scanner α)} {left : List α}
    (h : scanAll scanners text = some (parts, left)) : text = parts.flatten ++ left := by
  induction scanners generalizing text parts with
  | nil =>
      obtain ⟨rfl, rfl⟩ := Prod.mk.inj (Option.some.inj h)
      rfl
  | cons scanner scanners ih =>
      obtain ⟨part, rest, parts', hscan, hrest, rfl⟩ := scanAll_cons.mp h
      rw [(scanner.sound hscan).1, ih hrest, List.flatten_cons, List.append_assoc]

theorem scanAll_append {scanners scanners' : List (Scanner α)} {left : List α} :
    scanAll (scanners ++ scanners') text = some (parts, left) ↔
      ∃ front middle back, scanAll scanners text = some (front, middle) ∧
        scanAll scanners' middle = some (back, left) ∧ parts = front ++ back := by
  induction scanners generalizing text parts with
  | nil => simp [scanAll]
  | cons scanner scanners ih =>
      rw [List.cons_append, scanAll_cons]
      constructor
      · rintro ⟨part, rest, parts', hscan, hrest, rfl⟩
        obtain ⟨front, middle, back, hfront, hback, rfl⟩ := ih.mp hrest
        exact ⟨part :: front, middle, back,
          scanAll_cons.mpr ⟨part, rest, front, hscan, hfront, rfl⟩, hback, rfl⟩
      · rintro ⟨front, middle, back, hfront, hback, rfl⟩
        obtain ⟨part, rest, front', hscan, hrest, rfl⟩ := scanAll_cons.mp hfront
        exact ⟨part, rest, front' ++ back, hscan,
          ih.mpr ⟨front', middle, back, hrest, hback, rfl⟩, rfl⟩

/-- Where it is safe, the scan of a whole text is its greedy match. -/
theorem scanAll_eq_some_iff {scanners : List (Scanner α)} (h : Safe scanners) :
    scanAll scanners text = some (parts, []) ↔ Match (languages scanners) parts text := by
  induction scanners generalizing text parts with
  | nil =>
      cases parts with
      | nil => simp [scanAll, Match]
      | cons part parts => simp [scanAll, Match]
  | cons scanner scanners ih =>
      obtain ⟨hleaves, hsafe⟩ := h
      rw [scanAll_cons]
      constructor
      · rintro ⟨part, rest, parts', hscan, hrest, rfl⟩
        obtain ⟨htext, hpart⟩ := scanner.sound hscan
        refine ⟨rest, htext, hpart, (ih hsafe).mp hrest, ?_⟩
        intro part' rest' htext' hpart' hrest'
        obtain ⟨longest, left, hlongest, hle, -⟩ := hleaves part' rest' hpart' hrest'
        rw [← htext', hscan] at hlongest
        obtain ⟨rfl, -⟩ := Prod.mk.inj (Option.some.inj hlongest)
        exact hle
      · intro hmatch
        cases parts with
        | nil => exact hmatch.elim
        | cons part parts =>
            obtain ⟨rest, rfl, hpart, hrest, hmax⟩ := hmatch
            obtain ⟨longest, left, hscan, hle, hleft⟩ := hleaves part rest hpart hrest.mem_prod
            obtain ⟨htext, hlongest⟩ := scanner.sound hscan
            have hlength := Nat.le_antisymm (hmax longest left htext hlongest hleft) hle
            obtain ⟨rfl, rfl⟩ := List.append_inj htext hlength.symm
            exact ⟨part, rest, parts, hscan, (ih hsafe).mpr hrest, rfl⟩

end GoogleCloudRust.Greedy

import GoogleCloudRust.Library.Greedy
import GoogleCloudRust.Model.RoutingParameter
import Mathlib.Data.List.TakeWhile

/-! # Routing parameters are greedy matches

`value` takes the longest match of every segment and never takes it back. For the templates that
the generator writes this is the greedy match of the regular expression of the template. -/

namespace GoogleCloudRust.RoutingParameter

open Greedy (Scanner scanAll languages)

/-! ## Slices -/

theorem len_cons (c : Char) (s : List Char) : len (c :: s) = c.utf8Size + len s := rfl

theorem len_append (s t : List Char) : len (s ++ t) = len s + len t := by
  simp [len]

theorem len_eq_zero {s : List Char} : len s = 0 ↔ s = [] := by
  cases s with
  | nil => simp [len]
  | cons c s =>
      have hpos := c.utf8Size_pos
      rw [len_cons]
      refine iff_of_false (by omega) (List.cons_ne_nil c s)

theorem sliceFrom_append (s t : List Char) : sliceFrom (s ++ t) (len s) = .ok t := by
  induction s with
  | nil =>
      cases t with
      | nil => rfl
      | cons c t => rfl
  | cons c s ih =>
      have hpos := c.utf8Size_pos
      rw [List.cons_append, len_cons, sliceFrom, if_pos (Nat.le_add_right _ _),
        Nat.add_sub_cancel_left, ih]
      · intro hzero
        omega

theorem sliceTo_append (s t : List Char) : sliceTo (s ++ t) (len s) = .ok s := by
  induction s with
  | nil =>
      cases t with
      | nil => rfl
      | cons c t => rfl
  | cons c s ih =>
      have hpos := c.utf8Size_pos
      rw [List.cons_append, len_cons, sliceTo, if_pos (Nat.le_add_right _ _),
        Nat.add_sub_cancel_left, ih]
      · rfl
      · intro hzero
        omega

/-- A slice between two parts of a text. -/
theorem slice_append (s t u : List Char) :
    slice (s ++ (t ++ u)) (len s) (len s + len t) = .ok t := by
  rw [slice, if_pos (Nat.le_add_right _ _), sliceFrom_append, Nat.add_sub_cancel_left]
  exact sliceTo_append t u

/-! ## Segments -/

theorem find_eq (s : List Char) :
    (find '/' s).getD (len s) = len (s.takeWhile (· ≠ '/')) := by
  induction s with
  | nil => rfl
  | cons c s ih =>
      by_cases hc : c = '/'
      · simp [find, hc, len]
      · cases hfind : find '/' s with
        | none =>
            rw [hfind, Option.getD_none] at ih
            simp [find, hc, hfind, len_cons, ih]
        | some i =>
            rw [hfind, Option.getD_some] at ih
            simp [find, hc, hfind, len_cons, ih, Nat.add_comm]

namespace Segment

/-- The regular expression of a segment. -/
def language : Segment → Language Char
  | .literal lit => {lit}
  -- `[^/]+`
  | .singleWildcard => {word | word ≠ [] ∧ '/' ∉ word}
  -- `.*`
  | .multiWildcard => ⊤
  -- `([:/].*)?`
  | .trailingMultiWildcard => {word | ∀ c ∈ word.head?, c = ':' ∨ c = '/'}

def scan (haystack : List Char) : Segment → Option (List Char × List Char)
  | .literal lit => if lit <+: haystack then some (lit, haystack.drop lit.length) else none
  | .singleWildcard =>
      if haystack.takeWhile (· ≠ '/') = [] then none
      else some (haystack.takeWhile (· ≠ '/'), haystack.dropWhile (· ≠ '/'))
  | .multiWildcard => some (haystack, [])
  | .trailingMultiWildcard =>
      if haystack.head?.all fun c => c = ':' ∨ c = '/' then some (haystack, []) else none

theorem head_all_iff (s : List Char) : (s.head?.all fun c => c = ':' ∨ c = '/') = true ↔
    ∀ c ∈ s.head?, c = ':' ∨ c = '/' := by
  rw [Option.all_eq_true]
  simp only [decide_eq_true_eq, Option.mem_def]

theorem slash_not_mem_takeWhile (s : List Char) : '/' ∉ s.takeWhile (· ≠ '/') := by
  intro hmem
  exact absurd (List.mem_takeWhile_imp hmem) (by decide)

theorem takeWhile_append {word : List Char} (h : '/' ∉ word) (rest : List Char) :
    (word ++ rest).takeWhile (· ≠ '/') = word ++ rest.takeWhile (· ≠ '/') := by
  refine List.takeWhile_append_of_pos ?_
  intro c hc
  simpa using fun hslash : c = '/' => h (hslash ▸ hc)

theorem scan_sound {segment : Segment} {haystack part rest : List Char}
    (h : segment.scan haystack = some (part, rest)) :
    haystack = part ++ rest ∧ part ∈ segment.language := by
  cases segment with
  | literal lit =>
      simp only [scan] at h
      split_ifs at h with hlit
      obtain ⟨rest', rfl⟩ := hlit
      obtain ⟨rfl, rfl⟩ := Prod.mk.inj (Option.some.inj h)
      exact ⟨by rw [List.drop_left], rfl⟩
  | singleWildcard =>
      simp only [scan] at h
      split_ifs at h with hempty
      obtain ⟨rfl, rfl⟩ := Prod.mk.inj (Option.some.inj h)
      exact ⟨(List.takeWhile_append_dropWhile).symm, hempty, slash_not_mem_takeWhile haystack⟩
  | multiWildcard =>
      obtain ⟨rfl, rfl⟩ := Prod.mk.inj (Option.some.inj h)
      exact ⟨(List.append_nil _).symm, trivial⟩
  | trailingMultiWildcard =>
      simp only [scan] at h
      split_ifs at h with hhead
      obtain ⟨rfl, rfl⟩ := Prod.mk.inj (Option.some.inj h)
      exact ⟨(List.append_nil _).symm, (head_all_iff haystack).mp hhead⟩

def scanner (segment : Segment) : Scanner Char where
  language := segment.language
  scan := segment.scan
  sound := scan_sound

theorem matchSize_eq (segment : Segment) (haystack : List Char) :
    segment.matchSize haystack = (segment.scan haystack).map fun split => len split.1 := by
  cases segment with
  | literal lit =>
      simp only [matchSize, scan, List.isPrefixOf_iff_prefix]
      split_ifs <;> rfl
  | singleWildcard =>
      simp only [matchSize, scan, find_eq, ne_eq, len_eq_zero]
      split_ifs <;> rfl
  | multiWildcard => rfl
  | trailingMultiWildcard =>
      cases haystack with
      | nil => rfl
      | cons c haystack =>
          have hhead : ((c :: haystack).head?.all fun d => d = ':' ∨ d = '/') = true ↔
              (['/'].isPrefixOf (c :: haystack) = true ∨
                [':'].isPrefixOf (c :: haystack) = true) := by
            rw [head_all_iff]
            constructor
            · intro h
              rcases h c rfl with rfl | rfl
              · exact .inr rfl
              · exact .inl rfl
            · intro h d hd
              obtain rfl : c = d := Option.some.inj hd
              simp only [List.isPrefixOf, Bool.and_true, beq_iff_eq] at h
              rcases h with rfl | rfl
              · exact .inr rfl
              · exact .inl rfl
          simp only [matchSize, scan, List.isEmpty_cons, Bool.false_eq_true, if_false, hhead]
          split_ifs <;> rfl

end Segment

/-- A loop is a scan, and its slices are between two characters. -/
theorem consume_eq (needles : List Segment) (remains : List Char) (position : ℕ) :
    consume needles remains position =
      .ok ((scanAll (needles.map Segment.scanner) remains).map fun split =>
        (split.2, position + len split.1.flatten)) := by
  induction needles generalizing remains position with
  | nil => simp [consume, scanAll, len]
  | cons needle needles ih =>
      rw [consume, needle.matchSize_eq]
      cases hscan : needle.scan remains with
      | none => simp [scanAll, Segment.scanner, hscan]
      | some split =>
          obtain ⟨part, rest⟩ := split
          obtain ⟨rfl, -⟩ := Segment.scan_sound hscan
          simp only [Option.map_some, sliceFrom_append, bind, Except.bind, ih]
          cases hrest : scanAll (needles.map Segment.scanner) rest with
          | none => simp [scanAll, Segment.scanner, hscan, hrest]
          | some split =>
              simp [scanAll, Segment.scanner, hscan, hrest, len_append, Nat.add_assoc]

/-! ## Templates -/

/-- What may follow `*`, and that `**` is last. -/
structure WellShaped (template : List Segment) : Prop where
  single : ∀ before after, template = before ++ .singleWildcard :: after →
    after = [] ∨ (∃ lit rest, after = .literal ('/' :: lit) :: rest) ∨
      ∃ rest, after = .trailingMultiWildcard :: rest
  last : ∀ before segment after, template = before ++ segment :: after →
    segment = .multiWildcard ∨ segment = .trailingMultiWildcard → after = []

theorem WellShaped.nil : WellShaped [] where
  single before after htemplate := by simp at htemplate
  last before segment after htemplate := by simp at htemplate

theorem WellShaped.cons {segment : Segment} {template : List Segment}
    (hsingle : segment = .singleWildcard → template = [] ∨
      (∃ lit rest, template = .literal ('/' :: lit) :: rest) ∨
      ∃ rest, template = .trailingMultiWildcard :: rest)
    (hlast : segment = .multiWildcard ∨ segment = .trailingMultiWildcard → template = [])
    (h : WellShaped template) : WellShaped (segment :: template) where
  single before after htemplate := by
    cases before with
    | nil =>
        obtain ⟨hsegment, rfl⟩ := List.cons.inj htemplate
        exact hsingle hsegment
    | cons first before => exact h.single before after (List.cons.inj htemplate).2
  last before segment after htemplate hsegment := by
    cases before with
    | nil =>
        obtain ⟨rfl, rfl⟩ := List.cons.inj htemplate
        exact hlast hsegment
    | cons first before => exact h.last before segment after (List.cons.inj htemplate).2 hsegment

theorem WellShaped.tail {segment : Segment} {template : List Segment}
    (h : WellShaped (segment :: template)) : WellShaped template where
  single before after htemplate :=
    h.single (segment :: before) after (by rw [htemplate]; rfl)
  last before last after htemplate :=
    h.last (segment :: before) last after (by rw [htemplate]; rfl)

/-- The words of the template. -/
def language (template : List Segment) : Language Char :=
  (template.map Segment.language).prod

theorem languages_scanner (template : List Segment) :
    languages (template.map Segment.scanner) = template.map Segment.language := by
  rw [languages, List.map_map]
  rfl

theorem dropWhile_of_head {rest : List Char} (h : ∀ c ∈ rest.head?, c = '/') :
    rest.dropWhile (· ≠ '/') = rest := by
  cases rest with
  | nil => rfl
  | cons c rest =>
      obtain rfl := h c rfl
      rfl

/-- What `*` leaves can be matched by what follows it. -/
theorem WellShaped.left {template : List Segment} (h : WellShaped (.singleWildcard :: template))
    {rest : List Char} (hrest : rest ∈ language template) :
    rest.dropWhile (· ≠ '/') ∈ language template := by
  rcases h.single [] template rfl with rfl | ⟨lit, template, rfl⟩ | ⟨template, rfl⟩
  · have hnil : rest = [] := hrest
    rw [hnil]
    rfl
  · rw [language, List.map_cons, List.prod_cons, Language.mem_mul] at hrest
    obtain ⟨first, hfirst, second, hsecond, rfl⟩ := hrest
    obtain rfl : first = '/' :: lit := hfirst
    rw [dropWhile_of_head (by simp)]
    exact Language.append_mem_mul rfl hsecond
  · obtain rfl : template = [] :=
      h.last [.singleWildcard] .trailingMultiWildcard template rfl (.inr rfl)
    rw [language, List.map_singleton, List.prod_singleton] at hrest ⊢
    intro c hc
    right
    have hnot := List.head?_dropWhile_not (fun c => decide (c ≠ '/')) rest
    rw [Option.mem_def.mp hc] at hnot
    simpa using hnot

theorem WellShaped.safe {template : List Segment} (h : WellShaped template) :
    Greedy.Safe (template.map Segment.scanner) := by
  induction template with
  | nil => trivial
  | cons segment template ih =>
      refine ⟨?_, ih h.tail⟩
      rw [languages_scanner]
      intro part rest hpart hrest
      cases segment with
      | literal lit =>
          obtain rfl : part = lit := hpart
          exact ⟨part, rest, by simp [Segment.scanner, Segment.scan], Nat.le_refl _, hrest⟩
      | singleWildcard =>
          obtain ⟨hne, hslash⟩ := hpart
          refine ⟨part ++ rest.takeWhile (· ≠ '/'), rest.dropWhile (· ≠ '/'), ?_, by simp,
            h.left hrest⟩
          have hdrop : (part ++ rest).dropWhile (· ≠ '/') = rest.dropWhile (· ≠ '/') := by
            refine List.dropWhile_append_of_pos ?_
            intro c hc
            simpa using fun heq : c = '/' => hslash (heq ▸ hc)
          simp only [Segment.scanner, Segment.scan, Segment.takeWhile_append hslash, hdrop]
          rw [if_neg (by simp [hne])]
      | multiWildcard =>
          obtain rfl : template = [] := h.last [] .multiWildcard template rfl (.inl rfl)
          exact ⟨part ++ rest, [], rfl, by simp, rfl⟩
      | trailingMultiWildcard =>
          obtain rfl : template = [] := h.last [] .trailingMultiWildcard template rfl (.inr rfl)
          obtain rfl : rest = [] := hrest
          refine ⟨part, [], ?_, Nat.le_refl _, rfl⟩
          have hhead : ∀ c ∈ part.head?, c = ':' ∨ c = '/' := hpart
          simp only [Segment.scanner, Segment.scan, List.append_nil]
          rw [if_pos ((Segment.head_all_iff part).mpr hhead)]

/-! ## Values -/

/-- The greedy match of the text, and what the middle list matches in it. -/
def Captures (front matching back : List Segment) (haystack word : List Char) : Prop :=
  ∃ before parts after, before.length = front.length ∧ parts.length = matching.length ∧
    Greedy.Match ((front ++ matching ++ back).map Segment.language) (before ++ parts ++ after)
      haystack ∧
    word = parts.flatten

theorem value_eq (haystack : List Char) (front matching back : List Segment) :
    value (some haystack) front matching back =
      .ok (do
        let (_, remains) ← scanAll (front.map Segment.scanner) haystack
        let (parts, remains) ← scanAll (matching.map Segment.scanner) remains
        let (_, remains) ← scanAll (back.map Segment.scanner) remains
        if remains = [] ∧ parts.flatten ≠ [] then some parts.flatten else none) := by
  simp only [value, consume_eq, bind, Except.bind]
  cases hfront : scanAll (front.map Segment.scanner) haystack with
  | none => rfl
  | some split =>
  obtain ⟨before, remains⟩ := split
  simp only [Option.map_some, Option.bind]
  cases hmatching : scanAll (matching.map Segment.scanner) remains with
  | none => rfl
  | some split =>
  obtain ⟨parts, remains'⟩ := split
  simp only [Option.map_some]
  cases hback : scanAll (back.map Segment.scanner) remains' with
  | none => rfl
  | some split =>
  obtain ⟨after, left⟩ := split
  have htext : haystack = before.flatten ++ (parts.flatten ++ remains') := by
    rw [Greedy.scanAll_flatten hfront, Greedy.scanAll_flatten hmatching]
  have hempty : 0 + len before.flatten = 0 + len before.flatten + len parts.flatten ↔
      parts.flatten = [] := by
    rw [← len_eq_zero]
    omega
  simp only [Option.map_some, hempty, List.isEmpty_iff]
  by_cases hresult : left = [] ∧ parts.flatten ≠ []
  · rw [if_pos hresult, if_neg (by simp [hresult]), htext, Nat.zero_add, slice_append]
    rfl
  · rw [if_neg hresult, if_pos (by tauto)]
    rfl

/-- The three loops scan for the three lists as one scan does. -/
theorem captures_iff {front matching back : List Segment}
    (h : WellShaped (front ++ matching ++ back)) {haystack word : List Char} :
    Captures front matching back haystack word ↔
      ∃ before remains parts remains' after,
        scanAll (front.map Segment.scanner) haystack = some (before, remains) ∧
        scanAll (matching.map Segment.scanner) remains = some (parts, remains') ∧
        scanAll (back.map Segment.scanner) remains' = some (after, []) ∧ word = parts.flatten := by
  have hscan : ∀ parts, scanAll ((front ++ matching ++ back).map Segment.scanner) haystack =
      some (parts, []) ↔
        Greedy.Match ((front ++ matching ++ back).map Segment.language) parts haystack := by
    intro parts
    rw [Greedy.scanAll_eq_some_iff h.safe, languages_scanner]
  simp only [List.map_append] at hscan
  constructor
  · rintro ⟨before, parts, after, hbefore, hparts, hmatch, hword⟩
    rw [List.map_append, List.map_append, ← hscan, Greedy.scanAll_append] at hmatch
    obtain ⟨joined, remains', after', hjoined, hback, hafter⟩ := hmatch
    obtain ⟨before', remains, parts', hfront, hmatching, rfl⟩ := Greedy.scanAll_append.mp hjoined
    have hlength : (before ++ parts).length = (before' ++ parts').length := by
      have hfront' := Greedy.scanAll_length hfront
      have hmatching' := Greedy.scanAll_length hmatching
      rw [List.length_map] at hfront' hmatching'
      rw [List.length_append, List.length_append, hbefore, hparts, hfront', hmatching']
    obtain ⟨hfirst, rfl⟩ := List.append_inj hafter hlength
    have hfront' := Greedy.scanAll_length hfront
    rw [List.length_map] at hfront'
    obtain ⟨rfl, rfl⟩ := List.append_inj hfirst (hbefore.trans hfront'.symm)
    exact ⟨before, remains, parts, remains', after, hfront, hmatching, hback, hword⟩
  · rintro ⟨before, remains, parts, remains', after, hfront, hmatching, hback, hword⟩
    have hfront' := Greedy.scanAll_length hfront
    have hmatching' := Greedy.scanAll_length hmatching
    rw [List.length_map] at hfront' hmatching'
    refine ⟨before, parts, after, hfront', hmatching', ?_, hword⟩
    rw [List.map_append, List.map_append, ← hscan]
    exact Greedy.scanAll_append.mpr ⟨before ++ parts, remains', after,
      Greedy.scanAll_append.mpr ⟨before, remains, parts, hfront, hmatching, rfl⟩, hback, rfl⟩

theorem value_eq_some_iff {front matching back : List Segment}
    (h : WellShaped (front ++ matching ++ back)) {haystack word : List Char} :
    value (some haystack) front matching back = .ok (some word) ↔
      word ≠ [] ∧ Captures front matching back haystack word := by
  rw [value_eq, captures_iff h, Except.ok.injEq]
  simp only [Option.bind_eq_bind, Option.bind_eq_some_iff, Prod.exists]
  constructor
  · rintro ⟨before, remains, hfront, parts, remains', hmatching, after, left, hback, hresult⟩
    split_ifs at hresult with hwhole
    obtain ⟨rfl, hne⟩ := hwhole
    obtain rfl := Option.some.inj hresult
    exact ⟨hne, before, remains, parts, remains', after, hfront, hmatching, hback, rfl⟩
  · rintro ⟨hne, before, remains, parts, remains', after, hfront, hmatching, hback, rfl⟩
    refine ⟨before, remains, hfront, parts, remains', hmatching, after, [], hback, ?_⟩
    rw [if_pos ⟨rfl, hne⟩]

/-- Without lists around it, the template captures the whole text. -/
theorem captures_whole {template : List Segment} {haystack word : List Char} :
    Captures [] template [] haystack word ↔ word = haystack ∧ haystack ∈ language template := by
  constructor
  · rintro ⟨before, parts, after, hbefore, hparts, hmatch, hword⟩
    have hlength := hmatch.length_eq
    simp only [List.nil_append, List.append_nil, List.length_append, List.length_map] at hlength
    obtain rfl := List.eq_nil_of_length_eq_zero hbefore
    obtain rfl := List.eq_nil_of_length_eq_zero (show after.length = 0 by omega)
    simp only [List.append_nil, List.nil_append] at hmatch
    exact ⟨hword.trans hmatch.flatten, by simpa [language] using hmatch.mem_prod⟩
  · rintro ⟨rfl, hlanguage⟩
    obtain ⟨parts, hmatch⟩ := Greedy.exists_match hlanguage
    have hlength := hmatch.length_eq
    rw [List.length_map] at hlength
    exact ⟨[], parts, [], rfl, hlength, by simpa using hmatch, hmatch.flatten.symm⟩

theorem tryMatchImpl_eq_some_iff {template : List Segment} (h : WellShaped template)
    {haystack word : List Char} :
    tryMatchImpl (some haystack) template = .ok (some word) ↔
      word ≠ [] ∧ word = haystack ∧ haystack ∈ language template := by
  rw [tryMatchImpl, value_eq_some_iff (by simpa using h), captures_whole]

/-- A value is the word that the middle list matches, and slices are between characters. -/
theorem value_iff_captured (front matching back : List Segment)
    (h : WellShaped (front ++ matching ++ back)) (haystack : List Char) :
    (∃ result, value (some haystack) front matching back = .ok result) ∧
    ∀ word, value (some haystack) front matching back = .ok (some word) ↔
      word ≠ [] ∧ Captures front matching back haystack word :=
  ⟨⟨_, value_eq haystack front matching back⟩, fun _ => value_eq_some_iff h⟩

/-- The middle list ends with `*`, which takes the colon before `**` can. -/
theorem value_iff_captured_instance :
    WellShaped ([] ++ [.literal "projects/".toList, .singleWildcard] ++ [.trailingMultiWildcard]) ∧
      (∀ word, value (some "projects/é:x".toList) []
        [.literal "projects/".toList, .singleWildcard] [.trailingMultiWildcard] =
          .ok (some word) ↔
        word ≠ [] ∧ Captures [] [.literal "projects/".toList, .singleWildcard]
          [.trailingMultiWildcard] "projects/é:x".toList word) ∧
      value (some "projects/é:x".toList) [] [.literal "projects/".toList, .singleWildcard]
        [.trailingMultiWildcard] = .ok (some "projects/é:x".toList) := by
  have h : WellShaped
      ([] ++ [.literal "projects/".toList, .singleWildcard] ++ [.trailingMultiWildcard]) :=
    .cons (by simp) (by simp) (.cons (by simp) (by simp) (.cons (by simp) (by simp) .nil))
  exact ⟨h, (value_iff_captured _ _ _ h "projects/é:x".toList).2, by decide⟩

end GoogleCloudRust.RoutingParameter

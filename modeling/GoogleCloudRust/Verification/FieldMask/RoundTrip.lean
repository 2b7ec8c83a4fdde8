import GoogleCloudRust.Model.FieldMask

/-! # Field masks through JSON

A string without underscores is read and written without a change. A mask is written and read
without a change if and only if a lower case letter follows every underscore. -/

namespace GoogleCloudRust.Wkt.FieldMask

/-! ## Names and paths -/

def isNameChar (c : Char) : Bool := c.isLower || c.isDigit || c == '_'

/-- A field name in lower snake case. -/
structure IsName (name : List Char) : Prop where
  chars : ∀ c ∈ name, isNameChar c = true
  first : ∃ c rest, name = c :: rest ∧ c.isLower = true

/-- Names, separated by dots. -/
def IsPath (path : List Char) : Prop :=
  ∃ names, names ≠ [] ∧ (∀ name ∈ names, IsName name) ∧ path = ['.'].intercalate names

def StartsLower (s : List Char) : Prop := ∃ c rest, s = c :: rest ∧ c.isLower = true

/-- A lower case letter follows every underscore. -/
def Separates (path : List Char) : Prop :=
  ∀ before after, path = before ++ '_' :: after → StartsLower after

theorem separates_cons {c : Char} {path : List Char} :
    Separates (c :: path) ↔ (c = '_' → StartsLower path) ∧ Separates path := by
  constructor
  · intro h
    refine ⟨?_, ?_⟩
    · rintro rfl
      exact h [] path rfl
    · intro before after hpath
      exact h (c :: before) after (by rw [hpath]; rfl)
  · rintro ⟨hfirst, hrest⟩ before after hpath
    cases before with
    | nil =>
        obtain ⟨hc, rfl⟩ := List.cons.inj hpath
        exact hfirst hc
    | cons b before =>
        exact hrest before after (List.cons.inj hpath).2

/-! ## Letters -/

def lowerLetters : List Char := "abcdefghijklmnopqrstuvwxyz".toList

def upperLetters : List Char := "ABCDEFGHIJKLMNOPQRSTUVWXYZ".toList

theorem isLower_iff {c : Char} : c.isLower = true ↔ 'a'.val ≤ c.val ∧ c.val ≤ 'z'.val := by
  change (decide (c.val ≥ 'a'.val) && decide (c.val ≤ 'z'.val)) = true ↔ _
  rw [Bool.and_eq_true, decide_eq_true_eq, decide_eq_true_eq]

theorem mem_lowerLetters {c : Char} (h : c.isLower = true) : c ∈ lowerLetters := by
  have hc : Char.ofNat c.toNat = c := Char.ofNat_toNat c
  have hrange : 97 ≤ c.toNat ∧ c.toNat ≤ 122 := by
    obtain ⟨hlow, hhigh⟩ := isLower_iff.mp h
    exact ⟨UInt32.le_iff_toNat_le.mp hlow, UInt32.le_iff_toNat_le.mp hhigh⟩
  have hall : ∀ n : ℕ, n < 123 → 97 ≤ n → Char.ofNat n ∈ lowerLetters := by decide
  rw [← hc]
  exact hall c.toNat (by omega) hrange.1

theorem mem_upperLetters {c : Char} (h : c.isUpper = true) : c ∈ upperLetters := by
  have hc : Char.ofNat c.toNat = c := Char.ofNat_toNat c
  have hrange : 65 ≤ c.toNat ∧ c.toNat ≤ 90 := by
    obtain ⟨hlow, hhigh⟩ := of_decide_eq_true h
    exact ⟨UInt32.le_iff_toNat_le.mp hlow, UInt32.le_iff_toNat_le.mp hhigh⟩
  have hall : ∀ n : ℕ, n < 91 → 65 ≤ n → Char.ofNat n ∈ upperLetters := by decide
  rw [← hc]
  exact hall c.toNat (by omega) hrange.1

/-- A check of each lower case letter. -/
theorem of_lowerLetters {p : Char → Bool} (hall : lowerLetters.all p = true) {c : Char}
    (h : c.isLower = true) : p c = true :=
  List.all_eq_true.mp hall c (mem_lowerLetters h)

theorem of_upperLetters {p : Char → Bool} (hall : upperLetters.all p = true) {c : Char}
    (h : c.isUpper = true) : p c = true :=
  List.all_eq_true.mp hall c (mem_upperLetters h)

theorem isUpper_toUpper {c : Char} (h : c.isLower = true) : c.toUpper.isUpper = true := by
  have hall : (lowerLetters.all fun c => c.toUpper.isUpper) = true := by decide
  exact of_lowerLetters hall h

theorem toLower_toUpper {c : Char} (h : c.isLower = true) : c.toUpper.toLower = c := by
  have hall : (lowerLetters.all fun c => c.toUpper.toLower = c) = true := by decide
  exact of_decide_eq_true (of_lowerLetters hall h)

theorem isUpper_eq_false {c : Char} (h : c.isLower = true) : c.isUpper = false := by
  have hall : (lowerLetters.all fun c => c.isUpper = false) = true := by decide
  exact of_decide_eq_true (of_lowerLetters hall h)

theorem toUpper_toLower {c : Char} (h : c.isUpper = true) : c.toLower.toUpper = c := by
  have hall : (upperLetters.all fun c => c.toLower.toUpper = c) = true := by decide
  exact of_decide_eq_true (of_upperLetters hall h)

theorem toLower_ne_underscore {c : Char} (h : c.isUpper = true) : c.toLower ≠ '_' := by
  have hall : (upperLetters.all fun c => c.toLower ≠ '_') = true := by decide
  exact of_decide_eq_true (of_upperLetters hall h)

/-! ## From camel case and back -/

theorem toCamelCase_toSnakeCase {camel : List Char} (h : '_' ∉ camel) :
    toCamelCase (toSnakeCase camel) = camel := by
  unfold toCamelCase
  induction camel with
  | nil => rfl
  | cons c camel ih =>
      have hc : '_' ≠ c := List.ne_of_not_mem_cons h
      have hcamel : '_' ∉ camel := List.not_mem_of_not_mem_cons h
      by_cases hupper : c.isUpper = true
      · simp [toSnakeCase, camelLoop, hupper, toLower_ne_underscore hupper,
          toUpper_toLower hupper, ih hcamel]
      · simp [toSnakeCase, camelLoop, hupper, Ne.symm hc, ih hcamel]

theorem mem_toCamelCase {c : Char} {snake : List Char} {capitalizeNext : Bool}
    (h : c ∈ camelLoop capitalizeNext snake) : c ∈ snake ∨ ∃ b ∈ snake, c = b.toUpper := by
  induction snake generalizing capitalizeNext with
  | nil => exact absurd h List.not_mem_nil
  | cons b snake ih =>
      unfold camelLoop at h
      split at h
      · rcases ih h with hmem | ⟨d, hd, rfl⟩
        · exact .inl (.tail b hmem)
        · exact .inr ⟨d, .tail b hd, rfl⟩
      · split at h
        all_goals
          rcases List.mem_cons.mp h with rfl | hmem
          · simp
          · rcases ih hmem with hmem | ⟨d, hd, rfl⟩
            · exact .inl (.tail b hmem)
            · exact .inr ⟨d, .tail b hd, rfl⟩

/-- What the code reads back is never longer than the path. -/
theorem length_toSnakeCase_camelLoop {snake : List Char} (h : ∀ c ∈ snake, c.isUpper = false)
    (capitalizeNext : Bool) :
    (toSnakeCase (camelLoop capitalizeNext snake)).length ≤
      snake.length + capitalizeNext.toNat := by
  induction snake generalizing capitalizeNext with
  | nil => simp [camelLoop, toSnakeCase]
  | cons c snake ih =>
      have hsnake := ih fun d hd => h d (.tail c hd)
      by_cases hc : c = '_'
      · have hnext := hsnake true
        simp only [camelLoop, hc, if_pos, List.length_cons]
        simp only [Bool.toNat_true] at hnext
        omega
      · have hnext := hsnake false
        simp only [Bool.toNat_false, Nat.add_zero] at hnext
        cases capitalizeNext with
        | false => simp [camelLoop, toSnakeCase, hc, h c (.head snake), hnext]
        | true =>
            by_cases hupper : c.toUpper.isUpper = true
            · simp [camelLoop, toSnakeCase, hc, hupper, hnext]
            · simp [camelLoop, toSnakeCase, hc, hupper]
              omega

theorem startsLower_cons {c : Char} {rest : List Char} :
    StartsLower (c :: rest) ↔ c.isLower = true := by
  constructor
  · rintro ⟨d, after, hcons, hd⟩
    obtain ⟨rfl, -⟩ := List.cons.inj hcons
    exact hd
  · intro hc
    exact ⟨c, rest, rfl, hc⟩

theorem toUpper_of_not_isLower {c : Char} (h : ¬ c.isLower = true) : c.toUpper = c := by
  rw [isLower_iff] at h
  unfold Char.toUpper
  split
  · next hrange => exact absurd hrange h
  · rfl

/-- Both modes of `to_camel_case`, against the path without and with an underscore before it. -/
theorem toSnakeCase_camelLoop {snake : List Char} (h : ∀ c ∈ snake, c.isUpper = false) :
    (toSnakeCase (camelLoop false snake) = snake ↔ Separates snake) ∧
      (toSnakeCase (camelLoop true snake) = '_' :: snake ↔
        StartsLower snake ∧ Separates snake) := by
  induction snake with
  | nil =>
      refine ⟨?_, ?_⟩
      · simp [camelLoop, toSnakeCase, Separates]
      · simp [camelLoop, toSnakeCase, StartsLower]
  | cons c snake ih =>
      have hsnake : ∀ d ∈ snake, d.isUpper = false := fun d hd => h d (.tail c hd)
      obtain ⟨hplain, hcapital⟩ := ih hsnake
      have hupper : c.isUpper = false := h c (.head snake)
      by_cases hc : c = '_'
      · subst hc
        refine ⟨?_, ?_⟩
        · rw [separates_cons]
          simpa [camelLoop] using hcapital
        · rw [startsLower_cons]
          refine iff_of_false ?_ fun h => absurd h.1 (by decide)
          intro heq
          have hlength := length_toSnakeCase_camelLoop hsnake true
          have := congrArg List.length heq
          simp [camelLoop] at this hlength
          omega
      · refine ⟨?_, ?_⟩
        · rw [separates_cons]
          simpa [camelLoop, toSnakeCase, hc, hupper] using hplain
        · rw [startsLower_cons, separates_cons]
          by_cases hlower : c.isLower = true
          · simpa [camelLoop, toSnakeCase, hc, hlower, isUpper_toUpper hlower,
              toLower_toUpper hlower] using hplain
          · simp [camelLoop, toSnakeCase, hc, hlower, toUpper_of_not_isLower hlower, hupper]

theorem toSnakeCase_toCamelCase {path : List Char} (h : ∀ c ∈ path, c.isUpper = false) :
    toSnakeCase (toCamelCase path) = path ↔ Separates path :=
  (toSnakeCase_camelLoop h).1

/-! ## Characters of a path -/

theorem mem_intercalate {α : Type*} {sep a : α} {names : List (List α)}
    (h : a ∈ [sep].intercalate names) : a = sep ∨ ∃ name ∈ names, a ∈ name := by
  induction names with
  | nil => exact absurd h List.not_mem_nil
  | cons name names ih =>
      by_cases hnames : names = []
      · subst hnames
        rw [List.intercalate_singleton] at h
        exact .inr ⟨name, .head [], h⟩
      · rw [List.intercalate_cons_of_ne_nil hnames, List.append_assoc, List.mem_append] at h
        rcases h with hname | hrest
        · exact .inr ⟨name, .head names, hname⟩
        · rcases List.mem_cons.mp hrest with rfl | hrest
          · exact .inl rfl
          · rcases ih hrest with hsep | ⟨other, hother, ha⟩
            · exact .inl hsep
            · exact .inr ⟨other, .tail name hother, ha⟩

theorem mem_intercalate_of_mem {α : Type*} {sep a : α} {name : List α} {names : List (List α)}
    (hname : name ∈ names) (h : a ∈ name) : a ∈ [sep].intercalate names := by
  induction names with
  | nil => exact absurd hname List.not_mem_nil
  | cons other names ih =>
      by_cases hnames : names = []
      · subst hnames
        rw [List.intercalate_singleton]
        exact List.mem_singleton.mp hname ▸ h
      · rw [List.intercalate_cons_of_ne_nil hnames]
        rcases List.mem_cons.mp hname with rfl | hmem
        · exact List.mem_append_left _ (List.mem_append_left _ h)
        · exact List.mem_append_right _ (ih hmem)

theorem IsPath.mem {path : List Char} (h : IsPath path) {c : Char} (hc : c ∈ path) :
    isNameChar c = true ∨ c = '.' := by
  obtain ⟨names, -, hnames, rfl⟩ := h
  rcases mem_intercalate hc with hdot | ⟨name, hname, hmem⟩
  · exact .inr hdot
  · exact .inl ((hnames name hname).chars c hmem)

theorem IsPath.isUpper_eq_false {path : List Char} (h : IsPath path) :
    ∀ c ∈ path, c.isUpper = false := by
  intro c hc
  rcases h.mem hc with hname | rfl
  · simp only [isNameChar, Bool.or_eq_true, beq_iff_eq] at hname
    rcases hname with (hlower | hdigit) | rfl
    · exact FieldMask.isUpper_eq_false hlower
    · have hle : c.toNat ≤ 57 := by
        simp only [Char.isDigit, Bool.and_eq_true, decide_eq_true_eq] at hdigit
        exact UInt32.le_iff_toNat_le.mp hdigit.2
      have hletters : (upperLetters.all fun d => 57 < d.toNat) = true := by decide
      rw [← Bool.not_eq_true]
      intro hupper
      have hlarge := of_decide_eq_true (of_upperLetters hletters hupper)
      omega
    · decide
  · decide

theorem IsPath.startsLower {path : List Char} (h : IsPath path) : StartsLower path := by
  obtain ⟨names, hne, hnames, rfl⟩ := h
  cases names with
  | nil => exact absurd rfl hne
  | cons name names =>
      obtain ⟨c, rest, hname, hc⟩ := (hnames name (.head names)).first
      by_cases hnil : names = []
      · exact ⟨c, rest, by simp [hnil, hname], hc⟩
      · exact ⟨c, rest ++ ['.'] ++ ['.'].intercalate names,
          by rw [List.intercalate_cons_of_ne_nil hnil, hname]; simp, hc⟩

/-- A comma is no part of a path, in either spelling. -/
theorem IsPath.comma_not_mem {path : List Char} (h : IsPath path) :
    ',' ∉ toCamelCase path := by
  intro hmem
  have hcomma : ',' ∉ path := by
    intro hc
    rcases h.mem hc with hname | hdot
    · exact absurd hname (by decide)
    · exact absurd hdot (by decide)
  rcases mem_toCamelCase hmem with hc | ⟨b, hb, hc⟩
  · exact hcomma hc
  · by_cases hlower : b.isLower = true
    · have := isUpper_toUpper hlower
      rw [← hc] at this
      exact absurd this (by decide)
    · rw [toUpper_of_not_isLower hlower] at hc
      exact hcomma (hc ▸ hb)

/-! ## Through JSON and back -/

theorem serialize_deserialize {value : List Char} (h : '_' ∉ value) :
    (deserialize value).serialize = value := by
  by_cases hempty : value = []
  · subst hempty
    rfl
  · have hjoin : [','].intercalate (value.splitOn ',') = value := List.intercalate_splitOn ','
    have hpieces : (value.splitOn ',').map (toCamelCase ∘ toSnakeCase) = value.splitOn ',' := by
      refine (List.map_congr_left ?_).trans (List.map_id _)
      intro piece hpiece
      refine toCamelCase_toSnakeCase fun hmem => h ?_
      rw [← hjoin]
      exact mem_intercalate_of_mem hpiece hmem
    simp only [deserialize, visitStr, serialize, List.isEmpty_iff, hempty, if_false, List.map_map,
      hpieces, hjoin]

theorem serialize_isEmpty {mask : FieldMask} (h : ∀ path ∈ mask.paths, IsPath path) :
    mask.serialize = [] ↔ mask.paths = [] := by
  constructor
  · intro hnil
    cases hpaths : mask.paths with
    | nil => rfl
    | cons path paths =>
        exfalso
        have hpath : path ∈ mask.paths := by simp [hpaths]
        obtain ⟨c, rest, hcons, hc⟩ := (h path hpath).startsLower
        have hne : c ≠ '_' := by
          rintro rfl
          exact absurd hc (by decide)
        have hmem : c ∈ mask.serialize :=
          mem_intercalate_of_mem (List.mem_map_of_mem hpath) (by
            simp [toCamelCase, camelLoop, hcons, hne])
        rw [hnil] at hmem
        exact List.not_mem_nil hmem
  · intro hnil
    simp [serialize, hnil]

theorem deserialize_serialize {mask : FieldMask} (h : ∀ path ∈ mask.paths, IsPath path) :
    (deserialize mask.serialize).paths =
      mask.paths.map fun path => toSnakeCase (toCamelCase path) := by
  by_cases hpaths : mask.paths = []
  · simp [deserialize, visitStr, (serialize_isEmpty h).mpr hpaths, hpaths]
  · have hne : mask.serialize ≠ [] := fun hnil => hpaths ((serialize_isEmpty h).mp hnil)
    have hsplit : mask.serialize.splitOn ',' = mask.paths.map toCamelCase := by
      refine List.splitOn_intercalate ',' ?_ (by simpa using hpaths)
      intro camel hcamel
      obtain ⟨path, hpath, rfl⟩ := List.mem_map.mp hcamel
      exact (h path hpath).comma_not_mem
    simp only [deserialize, visitStr, List.isEmpty_iff, hne, if_false, hsplit, List.map_map]
    rfl

theorem deserialize_serialize_eq {mask : FieldMask} (h : ∀ path ∈ mask.paths, IsPath path) :
    deserialize mask.serialize = mask ↔
      ∀ path ∈ mask.paths, toSnakeCase (toCamelCase path) = path := by
  rw [← List.map_inj_left, ← deserialize_serialize h, List.map_id']
  constructor
  · intro heq
    exact congrArg paths heq
  · intro hpaths
    exact congrArg mk hpaths

/-- A mask of paths keeps its paths if and only if each of them separates. -/
theorem json_round_trip :
    (∀ mask : FieldMask, (∀ path ∈ mask.paths, IsPath path) →
      (deserialize mask.serialize = mask ↔ ∀ path ∈ mask.paths, Separates path)) ∧
    ∀ value : List Char, '_' ∉ value → (deserialize value).serialize = value := by
  refine ⟨?_, fun value => serialize_deserialize⟩
  intro mask h
  rw [deserialize_serialize_eq h]
  exact forall₂_congr fun path hmem => toSnakeCase_toCamelCase (h path hmem).isUpper_eq_false

theorem isPath_singleton {name : List Char} (h : IsName name) : IsPath name :=
  ⟨[name], List.cons_ne_nil name [], by simpa using h, List.intercalate_singleton.symm⟩

/-- A digit after an underscore: the mask reads `field1`. -/
theorem underscore_before_digit_lost :
    ∃ mask : FieldMask, (∀ path ∈ mask.paths, IsPath path) ∧
      deserialize mask.serialize = ⟨["field1".toList]⟩ ∧
      (deserialize mask.serialize).paths ≠ mask.paths := by
  refine ⟨⟨["field_1".toList]⟩, ?_, by decide, by decide⟩
  intro path hpath
  rw [List.mem_singleton.mp hpath]
  exact isPath_singleton ⟨List.all_eq_true.mp (by decide), 'f', "ield_1".toList, by decide, by decide⟩

/-- A mask with two paths, the second of which has two names. -/
theorem json_round_trip_two_paths :
    (∀ path ∈ ["display_name".toList, "labels.page_size".toList], IsPath path) ∧
      (deserialize (serialize ⟨["display_name".toList, "labels.page_size".toList]⟩) =
          ⟨["display_name".toList, "labels.page_size".toList]⟩ ↔
        ∀ path ∈ ["display_name".toList, "labels.page_size".toList], Separates path) ∧
      (deserialize "displayName,labels.pageSize".toList).serialize =
        "displayName,labels.pageSize".toList := by
  have hdisplay : IsName "display_name".toList :=
    ⟨List.all_eq_true.mp (by decide), 'd', "isplay_name".toList, by decide, by decide⟩
  have hlabels : IsName "labels".toList :=
    ⟨List.all_eq_true.mp (by decide), 'l', "abels".toList, by decide, by decide⟩
  have hsize : IsName "page_size".toList :=
    ⟨List.all_eq_true.mp (by decide), 'p', "age_size".toList, by decide, by decide⟩
  have hnames : ∀ name ∈ ["labels".toList, "page_size".toList], IsName name :=
    List.forall_mem_cons.mpr ⟨hlabels, List.forall_mem_singleton.mpr hsize⟩
  have hpaths : ∀ path ∈ ["display_name".toList, "labels.page_size".toList], IsPath path :=
    List.forall_mem_cons.mpr ⟨isPath_singleton hdisplay,
      List.forall_mem_singleton.mpr ⟨_, List.cons_ne_nil _ _, hnames, by decide⟩⟩
  exact ⟨hpaths, json_round_trip.1 ⟨_⟩ hpaths,
    json_round_trip.2 "displayName,labels.pageSize".toList (by decide)⟩

end GoogleCloudRust.Wkt.FieldMask

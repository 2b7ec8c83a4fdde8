import GoogleCloudRust.Verification.ResultSet.Reassembly

/-! # Chunked boundaries

How the values of a stream are distributed over its messages does not matter: the rows are those of
all values in sequence, after the two sides of each chunked boundary were merged. -/

namespace GoogleCloudRust.ResultSet

variable {conversion : StatsConversion}

/-! ## Pieces of values -/

/-- A value of a message, and whether the next value goes on with it. -/
structure Piece where
  value : Value
  chunked : Bool

/-- Only the last value of a message can be chunked. -/
def cut (chunked : Bool) : List Value → List Piece
  | [] => []
  | [value] => [⟨value, chunked⟩]
  | value :: next :: rest => ⟨value, false⟩ :: cut chunked (next :: rest)

/-- All values of the messages, in sequence. -/
def pieces (partialResultSets : List (PartialResultSet conversion)) : List Piece :=
  partialResultSets.flatMap fun partialResultSet =>
    cut partialResultSet.chunkedValue partialResultSet.values

def mergeFrom (piece : Piece) : List Piece → Except Error (List Value)
  | [] => .ok [piece.value]
  | next :: rest =>
      if piece.chunked then do
        let merged ← mergeValues piece.value next.value
        mergeFrom ⟨merged, next.chunked⟩ rest
      else do
        let values ← mergeFrom next rest
        return piece.value :: values

/-- Replaces every chunked boundary by what its two neighbours merge to. -/
def mergeBoundaries : List Piece → Except Error (List Value)
  | [] => .ok []
  | piece :: rest => mergeFrom piece rest

/-! ## One boundary -/

theorem cut_false_cons (value : Value) (rest : List Value) :
    cut false (value :: rest) = ⟨value, false⟩ :: cut false rest := by
  cases rest <;> rfl

theorem cut_append (chunked : Bool) (front : List Value) {values : List Value} (hvalues : values ≠ []) :
    cut chunked (front ++ values) = cut false front ++ cut chunked values := by
  induction front with
  | nil => rfl
  | cons value front ih =>
      obtain ⟨next, rest, hnext⟩ :=
        List.exists_cons_of_ne_nil (List.append_ne_nil_of_right_ne_nil front hvalues)
      rw [List.cons_append, hnext, cut, ← hnext, ih, cut_false_cons, List.cons_append]

/-- The first value can be exchanged. -/
theorem cut_cons (chunked : Bool) (rest : List Value) :
    ∃ flag pieces, ∀ value, cut chunked (value :: rest) = ⟨value, flag⟩ :: pieces := by
  cases rest with
  | nil => exact ⟨chunked, [], fun _ => rfl⟩
  | cons next rest => exact ⟨false, cut chunked (next :: rest), fun _ => rfl⟩

theorem mergeBoundaries_cons (value : Value) (rest : List Piece) :
    mergeBoundaries (⟨value, false⟩ :: rest) = (mergeBoundaries rest).map (value :: ·) := by
  cases rest with
  | nil => rfl
  | cons next rest =>
      rw [mergeBoundaries, mergeFrom, if_neg Bool.false_ne_true, mergeBoundaries]
      cases mergeFrom next rest <;> rfl

/-- Complete values take no part. -/
theorem mergeBoundaries_cut_false (front : List Value) (rest : List Piece) :
    mergeBoundaries (cut false front ++ rest) = (mergeBoundaries rest).map (front ++ ·) := by
  induction front with
  | nil =>
      change mergeBoundaries rest = _
      cases mergeBoundaries rest <;> rfl
  | cons value front ih =>
      rw [cut_false_cons, List.cons_append, mergeBoundaries_cons, ih]
      cases mergeBoundaries rest <;> rfl

theorem mergeBoundaries_cut (chunked : Bool) (values : List Value) :
    mergeBoundaries (cut chunked values) = .ok values := by
  cases values using List.reverseRecOn with
  | nil => rfl
  | append_singleton front value =>
      rw [cut_append chunked front (List.cons_ne_nil value []), mergeBoundaries_cut_false]
      rfl

/-- The values of the next message go behind those so far, the first of them into a chunked one. -/
theorem mergeBoundaries_extendValues {chunked : Bool} {values : List Value}
    (hchunk : chunked = true → values ≠ []) {new : List Value} (hnew : new ≠ []) (flag : Bool)
    (rest : List Piece) :
    mergeBoundaries (cut chunked values ++ (cut flag new ++ rest)) =
      (extendValues chunked values new).bind fun joined =>
        mergeBoundaries (cut flag joined ++ rest) := by
  cases chunked with
  | false =>
      rw [← List.append_assoc, ← cut_append flag values hnew]
      rfl
  | true =>
      cases values using List.reverseRecOn with
      | nil => exact absurd rfl (hchunk rfl)
      | append_singleton front lastValue =>
          obtain ⟨firstNew, new, rfl⟩ := List.exists_cons_of_ne_nil hnew
          obtain ⟨continues, others, hcut⟩ := cut_cons flag new
          rw [cut_append true front (List.cons_ne_nil lastValue []), hcut, extendValues_chunked,
            List.append_assoc, mergeBoundaries_cut_false]
          have hboundary : mergeBoundaries
              (cut true [lastValue] ++ (⟨firstNew, continues⟩ :: others ++ rest)) =
                (mergeValues lastValue firstNew).bind fun merged =>
                  mergeBoundaries (⟨merged, continues⟩ :: others ++ rest) := rfl
          rw [hboundary]
          cases mergeValues lastValue firstNew with
          | error error => rfl
          | ok merged =>
              change _ = mergeBoundaries (cut flag (front ++ merged :: new) ++ rest)
              rw [cut_append flag front (List.cons_ne_nil merged new), hcut, List.append_assoc,
                mergeBoundaries_cut_false]
              rfl

/-- Joining the values message by message merges the boundaries of all values. -/
theorem Assembly.tryAddAll_eq_mergeBoundaries {assembly : Assembly}
    (hchunk : assembly.chunked = true → assembly.values ≠ [])
    (partialResultSets : List (PartialResultSet conversion)) :
    (assembly.tryAddAll partialResultSets).map Assembly.values =
      mergeBoundaries (cut assembly.chunked assembly.values ++ pieces partialResultSets) := by
  induction partialResultSets generalizing assembly with
  | nil =>
      rw [pieces, List.flatMap_nil, List.append_nil, mergeBoundaries_cut]
      rfl
  | cons partialResultSet rest ih =>
      rw [tryAddAll, add, pieces, List.flatMap_cons, ← pieces]
      split_ifs with hempty
      · -- A message without values leaves a chunked value as it is.
        rw [List.isEmpty_iff.mp hempty, cut, List.nil_append]
        exact ih hchunk
      · have hnew : partialResultSet.values ≠ [] := by simpa using hempty
        rw [mergeBoundaries_extendValues hchunk hnew]
        cases hextend : extendValues assembly.chunked assembly.values partialResultSet.values with
        | error error => rfl
        | ok joined =>
            exact ih fun _ => extendValues_ne_nil hnew hextend

/-! ## Intermediate states -/

section Runs

variable {metadata : ResultSetMetadata} {resultSet next : ResultSet conversion} {rows : List Row}
  {assembly : Assembly}

theorem storeStats_eq_error {stats : Option conversion.Message} {error : Error}
    (h : (storeStats stats).exec resultSet = (.error error, next)) : next = resultSet := by
  rw [storeStats, Fallible.exec_bind_ok (Fallible.exec_get resultSet)] at h
  split at h
  · cases h
    rfl
  · split at h
    · cases h
    · cases h
      rfl
  · cases h

/-- A message that is refused changes neither the buffered values nor whether the last is chunked. -/
theorem processPartialResultSet_eq_error {partialResultSet : PartialResultSet conversion}
    {error : Error}
    (hexec : (processPartialResultSet partialResultSet).exec resultSet = (.error error, next)) :
    next = { resultSet with stats := next.stats } := by
  rw [processPartialResultSet] at hexec
  rcases hstats : (storeStats partialResultSet.stats).exec resultSet with ⟨stored | ⟨⟩, middle⟩
  · rw [Fallible.exec_bind_error hstats] at hexec
    cases hexec
    rw [storeStats_eq_error hstats]
  · rw [Fallible.exec_bind_ok hstats, Fallible.exec_bind_ok (Fallible.exec_get middle)] at hexec
    have hframe := storeStats_eq_ok hstats
    have hsame : next = middle := by
      split_ifs at hexec with hempty
      · cases hexec
      · split at hexec
        · cases hexec
          rfl
        · split_ifs at hexec with hcolumns
          · cases hexec
            rfl
          · cases hextend : extendValues middle.chunked middle.bufferedValues
                partialResultSet.values with
            | error refused =>
                rw [hextend] at hexec
                cases hexec
                rfl
            | ok bufferedValues =>
                rw [hextend] at hexec
                cases hexec
    rw [hsame]
    exact hframe

/-- Also where a message is refused, the rows made so far and the buffered values are the values so
far. -/
theorem exists_holds {partialResultSets : List (PartialResultSet conversion)}
    {result : Except Error Unit}
    (hexec : (processAll partialResultSets).exec resultSet = (result, next))
    (hmetadata : resultSet.localMetadata = some metadata)
    (h : Holds metadata resultSet rows assembly) :
    ∃ rows' assembly', Holds metadata next rows' assembly' := by
  induction partialResultSets generalizing resultSet rows assembly with
  | nil =>
      cases hexec
      exact ⟨rows, assembly, h⟩
  | cons partialResultSet rest ih =>
      rw [processAll] at hexec
      rcases hfirst : (processPartialResultSet partialResultSet).exec resultSet with
        ⟨error | ⟨⟩, middle⟩
      · rw [Fallible.exec_bind_error hfirst] at hexec
        cases hexec
        have hframe := processPartialResultSet_eq_error hfirst
        exact ⟨rows, assembly, h.congr (by rw [hframe]) (by rw [hframe])⟩
      · rw [Fallible.exec_bind_ok hfirst] at hexec
        obtain ⟨assembly', new, -, hholds, -, hprocessed⟩ :=
          processPartialResultSet_holds hfirst hmetadata h
        exact ih hexec (hprocessed.localMetadata.trans hmetadata) hholds

/-! ## Whole streams -/

/-- A result set with metadata, before its first values. -/
def initialized (metadata : ResultSetMetadata) (resultSet : ResultSet conversion) :
    ResultSet conversion :=
  { resultSet with
    bufferedValues := []
    chunked := false
    readyRows := []
    localMetadata := some metadata }

theorem initialized_holds (hcolumns : 1 ≤ metadata.columnTypes.length)
    (resultSet : ResultSet conversion) :
    Holds metadata (initialized metadata resultSet) [] .empty := by
  refine ⟨rfl, rfl, by simp, hcolumns, ?_⟩
  intro hchunked
  cases hchunked

theorem validateStreamTermination_eq_ok (h : validateStreamTermination resultSet = .ok ()) :
    resultSet.chunked = false ∧ resultSet.bufferedValues = [] := by
  rw [validateStreamTermination] at h
  split_ifs at h with hchunked hbuffered
  exact ⟨by simpa using hchunked, by simpa using hbuffered⟩

/-- A stream that ends well has yielded the rows of its values, joined at the chunked boundaries.
Until then less than a row is buffered, or a row with a chunked last value. -/
theorem processAll_merges_boundaries (hcolumns : 1 ≤ metadata.columnTypes.length)
    (resultSet : ResultSet conversion) (partialResultSets : List (PartialResultSet conversion)) :
    (∀ processed, processed <+: partialResultSets → ∀ result next,
      (processAll processed).exec (initialized metadata resultSet) = (result, next) →
        (next.bufferedValues.length < metadata.columnTypes.length ∨
          next.bufferedValues.length = metadata.columnTypes.length ∧ next.chunked = true) ∧
        (next.chunked = true → next.bufferedValues ≠ [])) ∧
    (∀ next,
      (processAll partialResultSets).exec (initialized metadata resultSet) = (.ok (), next) →
      validateStreamTermination next = .ok () →
        ∃ values, mergeBoundaries (pieces partialResultSets) = .ok values ∧
          metadata.columnTypes.length ∣ values.length ∧
          next.readyRows = (groups metadata.columnTypes.length values).map
            fun values => Row.mk values metadata) := by
  have hstart := initialized_holds hcolumns resultSet
  constructor
  · intro processed _ result next hexec
    obtain ⟨rows, assembly, hholds⟩ := exists_holds hexec rfl hstart
    refine ⟨?_, hholds.chunk⟩
    have hbuffered := hholds.buffered
    cases hchunked : next.chunked with
    | false =>
        rw [hchunked] at hbuffered
        exact .inl hbuffered
    | true =>
        rw [hchunked, if_pos rfl, List.length_dropLast] at hbuffered
        rcases Nat.lt_or_ge next.bufferedValues.length metadata.columnTypes.length with hlt | hge
        · exact .inl hlt
        · exact .inr ⟨by omega, rfl⟩
  · intro next hexec hvalid
    obtain ⟨hchunked, hbuffered⟩ := validateStreamTermination_eq_ok hvalid
    obtain ⟨assembly, rows, hadd, hholds, hready, -⟩ := processAll_holds hexec rfl hstart
    have hmerge := @Assembly.tryAddAll_eq_mergeBoundaries conversion .empty
      (fun h => absurd h Bool.false_ne_true) partialResultSets
    rw [hadd] at hmerge
    have hcomplete : assembly.complete = assembly.values := by
      rw [Assembly.complete, ← hholds.chunked, hchunked]
      exact if_neg Bool.false_ne_true
    refine ⟨assembly.values, hmerge.symm, ?_, ?_⟩
    · rw [hholds.values, hbuffered, List.append_nil]
      apply dvd_length_flatten
      intro values hvalues
      obtain ⟨row, hrow, rfl⟩ := List.mem_map.mp hvalues
      exact (hholds.rows row hrow).1
    · rw [hready, ← hcomplete, hholds.rows_eq]
      rfl

/-- One column, and a name that arrives in two parts with nothing between them. -/
def nameColumn : ResultSetMetadata := ⟨["name"], [defaultType]⟩

def splitName : List (PartialResultSet ⟨Empty, Empty, Empty.elim⟩) :=
  [⟨none, [.stringValue "Gr"], true, [], none, false⟩,
   ⟨none, [], false, [], none, false⟩,
   ⟨none, [.stringValue "ace"], false, [], none, true⟩]

theorem splitName_merges_boundaries :
    ∃ next, (processAll splitName).exec (initialized nameColumn (new 1)) = (.ok (), next) ∧
      validateStreamTermination next = .ok () ∧
      ∃ values, mergeBoundaries (pieces splitName) = .ok values ∧
        nameColumn.columnTypes.length ∣ values.length ∧
        next.readyRows = (groups nameColumn.columnTypes.length values).map
          fun values => Row.mk values nameColumn := by
  have hbuffered : drainRows 1 true [.stringValue "Gr"] = ([], [.stringValue "Gr"]) := by
    rw [drainRows]
    rfl
  have hdrained : drainRows 1 false [.stringValue "Grace"] = ([[.stringValue "Grace"]], []) := by
    rw [drainRows, drainRows]
    rfl
  have hexec : (processAll splitName).exec (initialized nameColumn (new 1)) =
      (.ok (), { initialized nameColumn (new 1) with
        readyRows := [⟨[.stringValue "Grace"], nameColumn⟩] }) := by
    simp [splitName, processAll, processPartialResultSet, storeStats, Fallible.exec_bind, initialized,
      nameColumn, extendValues, pushRows, mergeValues, new, hbuffered, hdrained]
  exact ⟨_, hexec, rfl, (processAll_merges_boundaries (by decide) _ _).2 _ hexec rfl⟩

end Runs

end GoogleCloudRust.ResultSet

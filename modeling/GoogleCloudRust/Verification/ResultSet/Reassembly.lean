import Mathlib.Data.List.Induction
import GoogleCloudRust.Library.Batches
import GoogleCloudRust.Model.ResultSet

/-! # Reassembled rows

The rows of a sequence of partial result sets: their values, joined where a value is
chunked, and cut into rows. Processing the partial result sets one by one yields the same
rows. -/

namespace GoogleCloudRust.ResultSet

variable {conversion : StatsConversion}

/-! ## Joined values -/

section ExtendValues

variable {chunked : Bool} {bufferedValues values joined : List Value}

theorem extendValues_chunked (front values : List Value) (lastValue firstNew : Value) :
    extendValues true (front ++ [lastValue]) (firstNew :: values) =
      (mergeValues lastValue firstNew).map fun merged => front ++ merged :: values := by
  simp only [extendValues, List.getLast?_concat, List.dropLast_concat]
  cases mergeValues lastValue firstNew <;> rfl

/-- New values go behind the old ones, or the first of them continues the last old one. -/
theorem extendValues_cases (hvalues : values ≠ [])
    (h : extendValues chunked bufferedValues values = .ok joined) :
    (joined = bufferedValues ++ values ∧ (chunked = true → bufferedValues = [])) ∨
      ∃ front lastValue firstNew rest merged, chunked = true ∧
        bufferedValues = front ++ [lastValue] ∧ values = firstNew :: rest ∧
        mergeValues lastValue firstNew = .ok merged ∧ joined = front ++ merged :: rest := by
  cases chunked with
  | false =>
      cases h
      exact .inl ⟨rfl, nofun⟩
  | true =>
      cases bufferedValues using List.reverseRecOn with
      | nil =>
          cases h
          exact .inl ⟨rfl, fun _ => rfl⟩
      | append_singleton front lastValue =>
          obtain ⟨firstNew, rest, rfl⟩ := List.exists_cons_of_ne_nil hvalues
          rw [extendValues_chunked] at h
          cases hmerge : mergeValues lastValue firstNew with
          | error error =>
              rw [hmerge] at h
              cases h
          | ok merged =>
              rw [hmerge] at h
              cases h
              exact .inr ⟨front, lastValue, firstNew, rest, merged, rfl, rfl, rfl, hmerge, rfl⟩

theorem extendValues_ne_nil (hvalues : values ≠ [])
    (h : extendValues chunked bufferedValues values = .ok joined) : joined ≠ [] := by
  rcases extendValues_cases hvalues h with ⟨rfl, -⟩ | ⟨front, _, _, rest, merged, -, -, -, -, rfl⟩
  · exact List.append_ne_nil_of_right_ne_nil _ hvalues
  · simp

/-- The values before a chunked one do not take part. -/
theorem extendValues_append (front : List Value) (hne : chunked = true → bufferedValues ≠ [])
    (hvalues : values ≠ []) (h : extendValues chunked bufferedValues values = .ok joined) :
    extendValues chunked (front ++ bufferedValues) values = .ok (front ++ joined) := by
  rcases extendValues_cases hvalues h with
    ⟨rfl, hnil⟩ | ⟨initial, lastValue, firstNew, rest, merged, rfl, rfl, rfl, hmerge, rfl⟩
  · cases chunked with
    | false => exact congrArg Except.ok (List.append_assoc _ _ _)
    | true => exact absurd (hnil rfl) (hne rfl)
  · rw [← List.append_assoc, extendValues_chunked, hmerge, ← List.append_assoc]
    rfl

end ExtendValues

/-- Rows have the size of a row, and less than a complete row is left. -/
theorem drainRows_spec {columnCount : ℕ} (hcolumns : 0 < columnCount) (chunked : Bool)
    (values : List Value) :
    values = (drainRows columnCount chunked values).1.flatten ++
        (drainRows columnCount chunked values).2 ∧
      (∀ row ∈ (drainRows columnCount chunked values).1, row.length = columnCount) ∧
      (if chunked then (drainRows columnCount chunked values).2.dropLast
        else (drainRows columnCount chunked values).2).length < columnCount ∧
      (chunked = true → values ≠ [] → (drainRows columnCount chunked values).2 ≠ []) := by
  fun_induction drainRows columnCount chunked values with
  | case1 values hfull rows rest hdrain ih =>
      rw [hdrain] at ih
      obtain ⟨hflat, hrows, hrest, hne⟩ := ih
      refine ⟨?_, ?_, hrest, fun hchunked _ => hne hchunked ?_⟩
      · rw [List.flatten_cons, List.append_assoc, ← hflat, List.take_append_drop]
      · intro row hrow
        rcases List.mem_cons.mp hrow with rfl | hrow
        · rw [List.length_take]
          omega
        · exact hrows row hrow
      · -- A chunked value is left behind the row.
        rw [Ne, List.drop_eq_nil_iff]
        intro hle
        exact hfull.2.2 ⟨by omega, hchunked⟩
  | case2 values hfull =>
      refine ⟨rfl, by simp, ?_, fun _ hvalues => hvalues⟩
      cases chunked with
      | false =>
          simp at hfull ⊢
          omega
      | true =>
          simp at hfull ⊢
          omega

/-! ## The rows of a sequence of messages -/

/-- All values so far. -/
structure Assembly where
  values : List Value
  chunked : Bool

namespace Assembly

def empty : Assembly := ⟨[], false⟩

def add (assembly : Assembly) (partialResultSet : PartialResultSet conversion) :
    Except Error Assembly :=
  if partialResultSet.values.isEmpty then .ok assembly
  else
    (extendValues assembly.chunked assembly.values partialResultSet.values).map fun values =>
      ⟨values, partialResultSet.chunkedValue⟩

/-- The values of a sequence of messages that all fit. -/
def tryAddAll (assembly : Assembly) : List (PartialResultSet conversion) → Except Error Assembly
  | [] => .ok assembly
  | partialResultSet :: rest => do
      let assembly ← assembly.add partialResultSet
      assembly.tryAddAll rest

/-- The values of a sequence of messages, up to the first that does not fit. -/
def addAll (assembly : Assembly) : List (PartialResultSet conversion) → Assembly
  | [] => assembly
  | partialResultSet :: rest =>
      match assembly.add partialResultSet with
      | .ok assembly => assembly.addAll rest
      | .error _ => assembly

/-- A chunked value at the end is not complete. -/
def complete (assembly : Assembly) : List Value :=
  if assembly.chunked then assembly.values.dropLast else assembly.values

end Assembly

def reassemble (metadata : ResultSetMetadata)
    (partialResultSets : List (PartialResultSet conversion)) : List Row :=
  (groups metadata.columnTypes.length (Assembly.empty.addAll partialResultSets).complete).map
    fun values => ⟨values, metadata⟩

namespace Assembly

variable {assembly assembly' : Assembly}

/-- New values leave the complete ones as they are. -/
theorem extendValues_complete {values joined : List Value} (hvalues : values ≠ [])
    (h : extendValues assembly.chunked assembly.values values = .ok joined) :
    assembly.complete <+: joined.dropLast := by
  rcases assembly with ⟨all, chunked⟩
  rcases extendValues_cases hvalues h with
    ⟨rfl, hnil⟩ | ⟨front, lastValue, firstNew, rest, merged, rfl, rfl, rfl, -, rfl⟩
  · rw [List.dropLast_append_of_ne_nil hvalues]
    cases chunked with
    | false => exact List.prefix_append _ _
    | true =>
        obtain rfl := hnil rfl
        exact List.nil_prefix
  · simp only [complete, if_true, List.dropLast_concat]
    rw [List.dropLast_append_of_ne_nil (List.cons_ne_nil _ _)]
    exact List.prefix_append _ _

theorem add_complete {partialResultSet : PartialResultSet conversion}
    (h : assembly.add partialResultSet = .ok assembly') :
    assembly.complete <+: assembly'.complete := by
  rw [add] at h
  split_ifs at h with hempty
  · cases h
    exact List.prefix_rfl
  · have hvalues : partialResultSet.values ≠ [] := by simpa using hempty
    cases hextend : extendValues assembly.chunked assembly.values partialResultSet.values with
    | error error =>
        rw [hextend] at h
        cases h
    | ok values =>
        rw [hextend] at h
        cases h
        refine (extendValues_complete hvalues hextend).trans ?_
        simp only [complete]
        split_ifs
        · exact List.prefix_rfl
        · exact List.dropLast_prefix values

theorem addAll_of_tryAddAll {partialResultSets : List (PartialResultSet conversion)}
    (h : assembly.tryAddAll partialResultSets = .ok assembly')
    (rest : List (PartialResultSet conversion)) :
    assembly.addAll (partialResultSets ++ rest) = assembly'.addAll rest := by
  induction partialResultSets generalizing assembly with
  | nil =>
      cases h
      rfl
  | cons partialResultSet partialResultSets ih =>
      rw [tryAddAll] at h
      rw [List.cons_append, addAll]
      cases hadd : assembly.add partialResultSet with
      | error error =>
          rw [hadd] at h
          cases h
      | ok next =>
          rw [hadd] at h
          exact ih h

theorem tryAddAll_append {first second : List (PartialResultSet conversion)}
    {assembly'' : Assembly} (h : assembly.tryAddAll first = .ok assembly')
    (h' : assembly'.tryAddAll second = .ok assembly'') :
    assembly.tryAddAll (first ++ second) = .ok assembly'' := by
  induction first generalizing assembly with
  | nil =>
      cases h
      exact h'
  | cons partialResultSet first ih =>
      rw [tryAddAll] at h
      rw [List.cons_append, tryAddAll]
      cases hadd : assembly.add partialResultSet with
      | error error =>
          rw [hadd] at h
          cases h
      | ok next =>
          rw [hadd] at h
          exact ih h

theorem addAll_complete (assembly : Assembly)
    (partialResultSets : List (PartialResultSet conversion)) :
    assembly.complete <+: (assembly.addAll partialResultSets).complete := by
  induction partialResultSets generalizing assembly with
  | nil => exact List.prefix_rfl
  | cons partialResultSet rest ih =>
      rw [addAll]
      cases hadd : assembly.add partialResultSet with
      | error error => exact List.prefix_rfl
      | ok next => exact (add_complete hadd).trans (ih next)

end Assembly

/-! ## Rows made one message at a time -/

/-- The rows made so far and the buffered values are the values so far. -/
structure Holds (metadata : ResultSetMetadata) (resultSet : ResultSet conversion)
    (rows : List Row) (assembly : Assembly) : Prop where
  chunked : resultSet.chunked = assembly.chunked
  values : assembly.values = (rows.map Row.values).flatten ++ resultSet.bufferedValues
  rows : ∀ row ∈ rows, row.values.length = metadata.columnTypes.length ∧ row.metadata = metadata
  buffered : (if resultSet.chunked then resultSet.bufferedValues.dropLast
    else resultSet.bufferedValues).length < metadata.columnTypes.length
  chunk : resultSet.chunked = true → resultSet.bufferedValues ≠ []

variable {metadata : ResultSetMetadata} {resultSet next : ResultSet conversion} {rows : List Row}
  {assembly : Assembly}

theorem Holds.congr (h : Holds metadata resultSet rows assembly)
    (hchunked : next.chunked = resultSet.chunked)
    (hbuffered : next.bufferedValues = resultSet.bufferedValues) :
    Holds metadata next rows assembly := by
  refine ⟨hchunked.trans h.chunked, ?_, h.rows, ?_, ?_⟩
  · rw [hbuffered]
    exact h.values
  · rw [hchunked, hbuffered]
    exact h.buffered
  · rw [hchunked, hbuffered]
    exact h.chunk

/-- The rows made so far are those of the values so far. -/
theorem Holds.rows_eq (h : Holds metadata resultSet rows assembly) :
    (groups metadata.columnTypes.length assembly.complete).map (fun values => Row.mk values metadata) =
      rows := by
  have hcomplete : assembly.complete = (rows.map Row.values).flatten ++
      (if resultSet.chunked then resultSet.bufferedValues.dropLast
        else resultSet.bufferedValues) := by
    rw [Assembly.complete, h.values, ← h.chunked]
    split_ifs with hchunked
    · rw [List.dropLast_append_of_ne_nil (h.chunk hchunked)]
    · rfl
  rw [hcomplete, groups_flatten_append (Nat.zero_lt_of_lt h.buffered) _ h.buffered, List.map_map]
  · have hself : rows.map ((fun values => Row.mk values metadata) ∘ Row.values) = rows.map id :=
      List.map_congr_left fun row hrow => by rw [Function.comp_apply, ← (h.rows row hrow).2]; rfl
    rw [hself, List.map_id]
  · intro values hvalues
    obtain ⟨row, hrow, rfl⟩ := List.mem_map.mp hvalues
    exact (h.rows row hrow).1

/-- What the making of rows does not change. -/
structure Processed (resultSet next : ResultSet conversion) : Prop where
  stream : next.stream = resultSet.stream
  seenLast : next.seenLast = resultSet.seenLast
  localMetadata : next.localMetadata = resultSet.localMetadata
  lastResumeToken : next.lastResumeToken = resultSet.lastResumeToken
  buffer : next.partialResultSetsBuffer = resultSet.partialResultSetsBuffer
  safeToRetry : next.safeToRetry = resultSet.safeToRetry

theorem Processed.trans {middle : ResultSet conversion} (h : Processed resultSet middle)
    (h' : Processed middle next) : Processed resultSet next :=
  ⟨h'.stream.trans h.stream, h'.seenLast.trans h.seenLast, h'.localMetadata.trans h.localMetadata,
    h'.lastResumeToken.trans h.lastResumeToken, h'.buffer.trans h.buffer,
    h'.safeToRetry.trans h.safeToRetry⟩

theorem storeStats_eq_ok {stats : Option conversion.Message}
    (h : (storeStats stats).exec resultSet = (.ok (), next)) :
    next = { resultSet with stats := next.stats } := by
  rw [storeStats, Fallible.exec_bind_ok (Fallible.exec_get resultSet)] at h
  split at h
  · cases h
  · split at h
    · cases h
      rfl
    · cases h
  · cases h
    rfl

/-- The new rows are cut off the extended values. -/
theorem Holds.pushRows (h : Holds metadata resultSet rows assembly) (chunked : Bool)
    {values bufferedValues : List Value} (hvalues : values ≠ [])
    (hextend : extendValues resultSet.chunked resultSet.bufferedValues values = .ok bufferedValues) :
    ∃ joined new, extendValues assembly.chunked assembly.values values = .ok joined ∧
      (resultSet.pushRows metadata chunked bufferedValues).readyRows = resultSet.readyRows ++ new ∧
      Holds metadata (resultSet.pushRows metadata chunked bufferedValues) (rows ++ new)
        ⟨joined, chunked⟩ := by
  obtain ⟨hflat, hrows, hrest, hne⟩ :=
    drainRows_spec (Nat.zero_lt_of_lt h.buffered) chunked bufferedValues
  refine ⟨(rows.map Row.values).flatten ++ bufferedValues, _, ?_, rfl, rfl, ?_, ?_, hrest,
    fun hchunked => hne hchunked ?_⟩
  · rw [← h.chunked, h.values]
    exact extendValues_append _ h.chunk hvalues hextend
  · have hnew : (List.map Row.values ((drainRows metadata.columnTypes.length chunked
        bufferedValues).1.map fun values => Row.mk values metadata)) =
        (drainRows metadata.columnTypes.length chunked bufferedValues).1 := by
      rw [List.map_map]
      exact List.map_id _
    rw [List.map_append, List.flatten_append, List.append_assoc, hnew]
    exact congrArg _ hflat
  · intro row hrow
    rcases List.mem_append.mp hrow with hrow | hrow
    · exact h.rows row hrow
    · obtain ⟨values', hvalues', rfl⟩ := List.mem_map.mp hrow
      exact ⟨hrows values' hvalues', rfl⟩
  · exact extendValues_ne_nil hvalues hextend

theorem processPartialResultSet_holds {partialResultSet : PartialResultSet conversion}
    (hexec : (processPartialResultSet partialResultSet).exec resultSet = (.ok (), next))
    (hmetadata : resultSet.localMetadata = some metadata)
    (h : Holds metadata resultSet rows assembly) :
    ∃ assembly' new, assembly.add partialResultSet = .ok assembly' ∧
      Holds metadata next (rows ++ new) assembly' ∧
      next.readyRows = resultSet.readyRows ++ new ∧ Processed resultSet next := by
  rw [processPartialResultSet, Fallible.exec_bind_eq_ok] at hexec
  obtain ⟨⟨⟩, stored, hstats, hexec⟩ := hexec
  rw [Fallible.exec_bind_ok (Fallible.exec_get stored)] at hexec
  have hframe := storeStats_eq_ok hstats
  have hprocessed : Processed resultSet stored := by
    rw [hframe]
    exact ⟨rfl, rfl, rfl, rfl, rfl, rfl⟩
  have hready : stored.readyRows = resultSet.readyRows := by rw [hframe]
  have hstored : Holds metadata stored rows assembly := by
    rw [hframe]
    exact h.congr rfl rfl
  split_ifs at hexec with hempty
  · cases hexec
    refine ⟨assembly, [], by rw [Assembly.add, if_pos hempty], ?_, ?_, hprocessed⟩
    · rwa [List.append_nil]
    · rw [hready, List.append_nil]
  · rw [hprocessed.localMetadata.trans hmetadata] at hexec
    dsimp only at hexec
    split_ifs at hexec with hcolumns
    · cases hexec
    · rw [Fallible.exec_bind_eq_ok] at hexec
      obtain ⟨bufferedValues, same, hextend, hset⟩ := hexec
      rw [Fallible.exec_ofResult, Prod.mk.injEq] at hextend
      obtain ⟨hextend, rfl⟩ := hextend
      cases hset
      obtain ⟨joined, new, hjoined, hnew, hholds⟩ := hstored.pushRows partialResultSet.chunkedValue
        (by simpa using hempty) hextend
      refine ⟨⟨joined, partialResultSet.chunkedValue⟩, new, ?_, hholds, hready ▸ hnew,
        hprocessed.trans ⟨rfl, rfl, rfl, rfl, rfl, rfl⟩⟩
      rw [Assembly.add, if_neg hempty, hjoined]
      rfl

theorem processAll_holds {partialResultSets : List (PartialResultSet conversion)}
    (hexec : (processAll partialResultSets).exec resultSet = (.ok (), next))
    (hmetadata : resultSet.localMetadata = some metadata)
    (h : Holds metadata resultSet rows assembly) :
    ∃ assembly' new, assembly.tryAddAll partialResultSets = .ok assembly' ∧
      Holds metadata next (rows ++ new) assembly' ∧
      next.readyRows = resultSet.readyRows ++ new ∧ Processed resultSet next := by
  induction partialResultSets generalizing resultSet rows assembly with
  | nil =>
      cases hexec
      exact ⟨assembly, [], rfl, by rwa [List.append_nil], by rw [List.append_nil],
        ⟨rfl, rfl, rfl, rfl, rfl, rfl⟩⟩
  | cons partialResultSet rest ih =>
      rw [processAll, Fallible.exec_bind_eq_ok] at hexec
      obtain ⟨⟨⟩, middle, hfirst, hrest⟩ := hexec
      obtain ⟨assembly₁, new₁, hadd, hholds, hready, hprocessed⟩ :=
        processPartialResultSet_holds hfirst hmetadata h
      obtain ⟨assembly₂, new₂, hadd₂, hholds₂, hready₂, hprocessed₂⟩ :=
        ih hrest (hprocessed.localMetadata.trans hmetadata) hholds
      refine ⟨assembly₂, new₁ ++ new₂, ?_, ?_, ?_, hprocessed.trans hprocessed₂⟩
      · rw [Assembly.tryAddAll, hadd]
        exact hadd₂
      · rwa [← List.append_assoc]
      · rw [hready₂, hready, List.append_assoc]

end GoogleCloudRust.ResultSet

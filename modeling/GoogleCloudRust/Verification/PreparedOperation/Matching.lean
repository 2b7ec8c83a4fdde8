import Mathlib.Data.String.Basic
import GoogleCloudRust.Model.PreparedOperation

/-! # Matching is equality of shapes

A prepared descriptor matches a request exactly when both have the same shape, so
that matching is an equivalence, and requests of one shape share their fingerprint. -/

namespace GoogleCloudRust

theorem JsonMap.get_eq_some_iff {map : JsonMap} {name : String} {value : JsonValue} :
    map.get name = some value ↔ (name, value) ∈ map.entries := by
  unfold JsonMap.get
  constructor
  · intro h
    obtain ⟨entry, hfind, rfl⟩ := Option.map_eq_some_iff.mp h
    have hname : entry.1 = name := by simpa using List.find?_some hfind
    exact hname ▸ List.mem_of_find?_eq_some hfind
  · intro hmem
    cases hfind : map.entries.find? fun entry => entry.1 = name with
    | none => exact absurd (List.find?_eq_none.mp hfind _ hmem) (by simp)
    | some entry =>
        have hname : entry.1 = name := by simpa using List.find?_some hfind
        have hentry := List.mem_of_find?_eq_some hfind
        have heq := List.inj_on_of_nodup_map map.nodup hentry hmem hname
        rw [heq]
        rfl

namespace PreparedOperation

open FnvHasher

/-! ## Parameter shapes -/

/-- The declared type of a parameter, or the kind of its value. -/
def paramShape (request : ExecuteSqlRequest) (entry : String × JsonValue) :
    Option SpannerType × UInt32 :=
  match request.paramTypes.lookup entry.1 with
  | some paramType => (some paramType, 0)
  | none => (none, jsonValueKind entry.2)

/-- The shape of every parameter of the request. -/
def paramShapes (request : ExecuteSqlRequest) (name : String) :
    Option (Option SpannerType × UInt32) :=
  (request.params.bind fun params => params.get name).map fun value =>
    paramShape request (name, value)

/-- The named shapes in iteration order. -/
def namedShapes (request : ExecuteSqlRequest) : List (String × Option SpannerType × UInt32) :=
  match request.params with
  | some params => params.entries.map fun entry => (entry.1, paramShape request entry)
  | none => []

theorem mem_namedShapes {request : ExecuteSqlRequest} {name : String}
    {shape : Option SpannerType × UInt32} :
    (name, shape) ∈ namedShapes request ↔ paramShapes request name = some shape := by
  unfold namedShapes paramShapes
  cases request.params with
  | none => simp
  | some params =>
      simp only [List.mem_map, Option.bind_some, Option.map_eq_some_iff,
        JsonMap.get_eq_some_iff, Prod.mk.injEq]
      constructor
      · rintro ⟨entry, hentry, rfl, rfl⟩
        exact ⟨entry.2, hentry, rfl⟩
      · rintro ⟨value, hvalue, rfl⟩
        exact ⟨(name, value), hvalue, rfl, rfl⟩

theorem names_nodup (request : ExecuteSqlRequest) : ((namedShapes request).map Prod.fst).Nodup := by
  unfold namedShapes
  cases request.params with
  | none => exact List.nodup_nil
  | some params => simpa [List.map_map, Function.comp_def] using params.nodup

/-! ## Queries -/

/-- What a query is prepared by. -/
structure SameQueryShape (a b : ExecuteSqlRequest) : Prop where
  sql : a.sql = b.sql
  options : normalizeQueryOptions a.queryOptions = normalizeQueryOptions b.queryOptions
  params : ∀ name, paramShapes a name = paramShapes b name

theorem SameQueryShape.refl (a : ExecuteSqlRequest) : SameQueryShape a a :=
  ⟨rfl, rfl, fun _ => rfl⟩

theorem SameQueryShape.symm {a b : ExecuteSqlRequest} (h : SameQueryShape a b) :
    SameQueryShape b a :=
  ⟨h.sql.symm, h.options.symm, fun name => (h.params name).symm⟩

theorem SameQueryShape.trans {a b c : ExecuteSqlRequest} (h : SameQueryShape a b)
    (h' : SameQueryShape b c) : SameQueryShape a c :=
  ⟨h.sql.trans h'.sql, h.options.trans h'.options, fun name =>
    (h.params name).trans (h'.params name)⟩

/-- The parameters of a descriptor are the named shapes of its request, sorted. -/
theorem params_perm (request : ExecuteSqlRequest) (operationUid : UInt64) :
    (PreparedQuery.new request operationUid).params.Perm
      ((namedShapes request).map fun shape => ⟨shape.1, shape.2.1, shape.2.2⟩) := by
  unfold PreparedQuery.new namedShapes
  dsimp only
  cases request.params with
  | none => exact List.Perm.refl _
  | some params =>
      have hmap : params.entries.map (preparedParam request) =
          (params.entries.map fun entry => (entry.1, paramShape request entry)).map
            fun shape => (⟨shape.1, shape.2.1, shape.2.2⟩ : PreparedQueryParam) := by
        rw [List.map_map]
        refine List.map_congr_left fun entry _ => ?_
        simp only [preparedParam, paramShape, Function.comp_apply]
        cases request.paramTypes.lookup entry.1 <;> rfl
      dsimp only
      rw [← hmap]
      split_ifs
      · exact List.perm_insertionSort _ _
      · exact List.Perm.refl _

/-- One prepared parameter is accepted when the request gives it the same shape. -/
theorem matchesParam_iff {request : ExecuteSqlRequest} {params : JsonMap}
    (hparams : request.params = some params) {name : String} {shape : Option SpannerType × UInt32}
    (hshape : shape.1.isSome = true → shape.2 = 0) :
    PreparedQuery.matchesParam request params ⟨name, shape.1, shape.2⟩ = true ↔
      paramShapes request name = some shape := by
  unfold PreparedQuery.matchesParam paramShapes
  rw [hparams]
  dsimp only [Option.bind_some]
  cases params.get name with
  | none => simp
  | some value =>
      rcases shape with ⟨type, kind⟩
      cases type with
      | some expected =>
          obtain rfl : kind = 0 := hshape rfl
          simp only [decide_eq_true_eq, Option.map_some, Option.some.injEq, paramShape]
          cases request.paramTypes.lookup name <;> simp
      | none =>
          simp only [Option.map_some, Option.some.injEq, paramShape]
          cases request.paramTypes.lookup name <;> simp [eq_comm]

theorem paramShape_kind (request : ExecuteSqlRequest) (entry : String × JsonValue)
    (htyped : (paramShape request entry).1.isSome = true) : (paramShape request entry).2 = 0 := by
  unfold paramShape at htyped ⊢
  cases hlookup : request.paramTypes.lookup entry.1 with
  | some paramType => rfl
  | none => simp [hlookup] at htyped

theorem kind_of_mem_namedShapes {request : ExecuteSqlRequest}
    {shape : String × Option SpannerType × UInt32} (hmem : shape ∈ namedShapes request)
    (htyped : shape.2.1.isSome = true) : shape.2.2 = 0 := by
  unfold namedShapes at hmem
  cases hparams : request.params with
  | none => simp [hparams] at hmem
  | some params =>
      rw [hparams] at hmem
      obtain ⟨entry, -, rfl⟩ := List.mem_map.mp hmem
      exact paramShape_kind request entry htyped

/-- Distinct names, as many on both sides, and every shape of `a` found in `b`: then
`b` has no further parameters. -/
theorem paramShapes_eq_of_subset {a b : ExecuteSqlRequest}
    (hlength : (namedShapes a).length = (namedShapes b).length)
    (hsub : ∀ shape ∈ namedShapes a, paramShapes b shape.1 = some shape.2) (name : String) :
    paramShapes a name = paramShapes b name := by
  have hsubset : namedShapes a ⊆ namedShapes b := fun shape hshape =>
    mem_namedShapes.mpr (hsub shape hshape)
  have hperm : (namedShapes a).Perm (namedShapes b) :=
    ((names_nodup a).of_map _).subperm hsubset |>.perm_of_length_le hlength.ge
  ext shape
  rw [← mem_namedShapes, ← mem_namedShapes, hperm.mem_iff]

theorem matchesParams_iff (a b : ExecuteSqlRequest) (operationUid : UInt64) :
    (PreparedQuery.new a operationUid).matchesParams b = true ↔
      ∀ name, paramShapes a name = paramShapes b name := by
  have hperm := params_perm a operationUid
  unfold PreparedQuery.matchesParams
  cases hparams : b.params with
  | none =>
      have hb : namedShapes b = [] := by simp [namedShapes, hparams]
      rw [List.isEmpty_iff, ← List.length_eq_zero_iff, hperm.length_eq, List.length_map]
      constructor
      · intro hzero
        exact paramShapes_eq_of_subset (by simp [hzero, hb])
          (by simp [List.length_eq_zero_iff.mp hzero])
      · intro heq
        rw [List.length_eq_zero_iff, List.eq_nil_iff_forall_not_mem]
        rintro ⟨name, shape⟩ hmem
        rw [mem_namedShapes, heq, ← mem_namedShapes, hb] at hmem
        cases hmem
  | some params =>
      have hlen : params.entries.length = (namedShapes b).length := by
        simp [namedShapes, hparams]
      simp only [Bool.and_eq_true, decide_eq_true_eq, List.all_eq_true]
      rw [hperm.length_eq, List.length_map, hlen]
      have hall : (∀ param ∈ (PreparedQuery.new a operationUid).params,
          PreparedQuery.matchesParam b params param = true) ↔
          ∀ shape ∈ namedShapes a, paramShapes b shape.1 = some shape.2 := by
        simp only [hperm.mem_iff, List.mem_map, forall_exists_index, and_imp,
          forall_apply_eq_imp_iff₂]
        exact forall₂_congr fun shape hmem =>
          matchesParam_iff hparams (kind_of_mem_namedShapes hmem)
      rw [hall]
      constructor
      · rintro ⟨hlength, hsub⟩
        exact paramShapes_eq_of_subset hlength hsub
      · intro heq
        have hmem : ∀ shape, shape ∈ namedShapes a ↔ shape ∈ namedShapes b := by
          rintro ⟨name, shape⟩
          rw [mem_namedShapes, heq, mem_namedShapes]
        have hsame : (namedShapes a).Perm (namedShapes b) :=
          (List.perm_ext_iff_of_nodup ((names_nodup a).of_map _) ((names_nodup b).of_map _)).mpr hmem
        exact ⟨hsame.length_eq, fun shape hshape => mem_namedShapes.mp ((hmem shape).mp hshape)⟩

/-- A prepared query matches exactly the requests of its own shape. -/
theorem matchesRequest_iff (a b : ExecuteSqlRequest) (operationUid : UInt64) :
    (PreparedQuery.new a operationUid).matchesRequest b = true ↔ SameQueryShape a b := by
  unfold PreparedQuery.matchesRequest
  rw [Bool.and_eq_true, Bool.and_eq_true, matchesParams_iff, decide_eq_true_eq, decide_eq_true_eq]
  exact ⟨fun h => ⟨h.1.1, h.1.2, h.2⟩, fun h => ⟨⟨h.sql, h.options⟩, h.params⟩⟩

/-! ## Fingerprints of queries -/

def hashShape (hasher : FnvHasher) (shape : String × Option SpannerType × UInt32) : FnvHasher :=
  let hasher := writeStr hasher shape.1
  match shape.2.1 with
  | some paramType => hashType hasher paramType
  | none => writeU64 hasher shape.2.2.toUInt64

theorem hashParam_eq (request : ExecuteSqlRequest) (hasher : FnvHasher)
    (entry : String × JsonValue) :
    hashParam request hasher entry = hashShape hasher (entry.1, paramShape request entry) := by
  unfold hashParam hashShape paramShape
  dsimp only
  cases request.paramTypes.lookup entry.1 <;> rfl

/-- The parameters enter the fingerprint as their named shapes by name. -/
theorem hashParams_eq (request : ExecuteSqlRequest) (hasher : FnvHasher) {params : JsonMap}
    (hparams : request.params = some params) :
    hashParams request hasher params =
      (sortByName Prod.fst (namedShapes request)).foldl hashShape hasher := by
  have hshapes : namedShapes request =
      params.entries.map fun entry => (entry.1, paramShape request entry) := by
    simp [namedShapes, hparams]
  have hsort : sortByName Prod.fst (namedShapes request) =
      (sortByName Prod.fst params.entries).map fun entry => (entry.1, paramShape request entry) := by
    rw [hshapes]
    exact (List.map_insertionSort
      (fun left right : String × JsonValue => left.1 ≤ right.1)
      (fun left right : String × Option SpannerType × UInt32 => left.1 ≤ right.1)
      (fun entry => (entry.1, paramShape request entry)) params.entries
      fun _ _ _ _ => Iff.rfl).symm
  have hhash : hashParam request = fun hasher entry =>
      hashShape hasher (entry.1, paramShape request entry) := by
    funext hasher entry
    exact hashParam_eq request hasher entry
  rw [hsort, List.foldl_map, ← hhash]
  unfold hashParams
  split_ifs with hone
  · obtain ⟨entry, hentry⟩ := List.length_eq_one_iff.mp hone
    rw [hentry]
    rfl
  · rfl

/-- Sorting by distinct names forgets the iteration order. -/
theorem sortByName_eq {a b : ExecuteSqlRequest}
    (h : ∀ name, paramShapes a name = paramShapes b name) :
    sortByName Prod.fst (namedShapes a) = sortByName Prod.fst (namedShapes b) := by
  have hmem : ∀ shape, shape ∈ namedShapes a ↔ shape ∈ namedShapes b := by
    rintro ⟨name, shape⟩
    rw [mem_namedShapes, h, mem_namedShapes]
  have hperm : (namedShapes a).Perm (namedShapes b) :=
    (List.perm_ext_iff_of_nodup ((names_nodup a).of_map _) ((names_nodup b).of_map _)).mpr hmem
  refine List.Perm.eq_of_pairwise (fun x y hx hy hle hge => ?_)
    (List.pairwise_insertionSort _ _) (List.pairwise_insertionSort _ _)
    (((List.perm_insertionSort _ _).trans hperm).trans (List.perm_insertionSort _ _).symm)
  have hx := (hmem x).mp ((List.mem_insertionSort _).mp hx)
  exact List.inj_on_of_nodup_map (names_nodup b) hx ((List.mem_insertionSort _).mp hy)
    (le_antisymm hle hge)

/-- The strings by which options enter the fingerprint. -/
def optionStrings (options : Option QueryOptions) : String × String :=
  match options with
  | some options => (options.optimizerVersion, options.optimizerStatisticsPackage)
  | none => ("", "")

/-- Options that are dropped by normalisation have empty strings. -/
theorem optionStrings_normalize (options : Option QueryOptions) :
    optionStrings (normalizeQueryOptions options) = optionStrings options := by
  cases options with
  | none => rfl
  | some options =>
      rcases options with ⟨version, package⟩
      by_cases hversion : version = "" <;> by_cases hpackage : package = "" <;>
        simp [normalizeQueryOptions, optionStrings, Option.filter, hversion, hpackage]

/-- Queries of one shape share their fingerprint. -/
theorem SameQueryShape.fingerprint {a b : ExecuteSqlRequest} (h : SameQueryShape a b) :
    fingerprintExecuteSqlRequest a = fingerprintExecuteSqlRequest b := by
  have hfingerprint : ∀ request : ExecuteSqlRequest, fingerprintExecuteSqlRequest request =
      finish (writeStr (writeStr
        ((sortByName Prod.fst (namedShapes request)).foldl hashShape (writeStr new request.sql))
        (optionStrings request.queryOptions).1) (optionStrings request.queryOptions).2) := by
    intro request
    unfold fingerprintExecuteSqlRequest
    cases hparams : request.params with
    | none =>
        have hnil : namedShapes request = [] := by simp [namedShapes, hparams]
        rw [hnil]
        rfl
    | some params =>
        dsimp only
        rw [hashParams_eq request _ hparams]
        rfl
  rw [hfingerprint, hfingerprint, h.sql, sortByName_eq h.params,
    ← optionStrings_normalize a.queryOptions, h.options, optionStrings_normalize]

/-- Matching is an equivalence of requests, whatever their operations, and refines the equality of
fingerprints. -/
theorem matching_refines_fingerprint (a b c : ExecuteSqlRequest) (u v w : UInt64) :
    (PreparedQuery.new a u).matchesRequest a = true ∧
      ((PreparedQuery.new a u).matchesRequest b = true →
        (PreparedQuery.new b v).matchesRequest a = true) ∧
      ((PreparedQuery.new a u).matchesRequest b = true →
        (PreparedQuery.new b v).matchesRequest c = true →
          (PreparedQuery.new a w).matchesRequest c = true) ∧
      ((PreparedQuery.new a u).matchesRequest b = true →
        fingerprintExecuteSqlRequest a = fingerprintExecuteSqlRequest b) := by
  simp only [matchesRequest_iff]
  exact ⟨SameQueryShape.refl a, SameQueryShape.symm, SameQueryShape.trans,
    SameQueryShape.fingerprint⟩

/-- Other values, another order of the parameters, and empty options. -/
theorem matching_refines_fingerprint_reordered :
    let a : ExecuteSqlRequest :=
      ⟨"SELECT @a", some ⟨[("a", .string "x"), ("b", .null)], by decide⟩, ∅, [], none⟩
    let b : ExecuteSqlRequest :=
      ⟨"SELECT @a", some ⟨[("b", .null), ("a", .string "y")], by decide⟩, ∅, [], some ⟨"", ""⟩⟩
    (PreparedQuery.new a 1).matchesRequest b = true ∧
      (PreparedQuery.new b 2).matchesRequest a = true ∧
      fingerprintExecuteSqlRequest a = fingerprintExecuteSqlRequest b := by
  intro a b
  have hmatches : (PreparedQuery.new a 1).matchesRequest b = true := by decide +kernel
  obtain ⟨-, hsymm, -, hfingerprint⟩ := matching_refines_fingerprint a b a 1 2 1
  exact ⟨hmatches, hsymm hmatches, hfingerprint hmatches⟩

/-! ## Reads -/

/-- What a read is prepared by. -/
structure SameReadShape (a b : ReadRequest) : Prop where
  table : a.table = b.table
  index : a.index = b.index
  columns : a.columns = b.columns

theorem SameReadShape.symm {a b : ReadRequest} (h : SameReadShape a b) : SameReadShape b a :=
  ⟨h.table.symm, h.index.symm, h.columns.symm⟩

theorem SameReadShape.trans {a b c : ReadRequest} (h : SameReadShape a b)
    (h' : SameReadShape b c) : SameReadShape a c :=
  ⟨h.table.trans h'.table, h.index.trans h'.index, h.columns.trans h'.columns⟩

theorem normalizeIndex_inj {a b : String}
    (h : PreparedRead.normalizeIndex (some a) = PreparedRead.normalizeIndex (some b)) : a = b := by
  by_cases ha : a = "" <;> by_cases hb : b = "" <;>
    simp_all [PreparedRead.normalizeIndex, Option.filter]

/-- A prepared read matches exactly the requests of its own shape. -/
theorem matchesProtoReadRequest_iff (a b : ReadRequest) (operationUid : UInt64) :
    (PreparedRead.fromProtoReadRequest a operationUid).matchesProtoReadRequest b = true ↔
      SameReadShape a b := by
  simp only [PreparedRead.matchesProtoReadRequest, PreparedRead.matchesShape,
    PreparedRead.fromProtoReadRequest, PreparedRead.new, Bool.and_eq_true]
  constructor
  · rintro ⟨⟨htable, hindex⟩, hcolumns⟩
    exact ⟨of_decide_eq_true htable, normalizeIndex_inj (of_decide_eq_true hindex),
      of_decide_eq_true hcolumns⟩
  · intro h
    exact ⟨⟨decide_eq_true h.table, decide_eq_true (by rw [h.index])⟩, decide_eq_true h.columns⟩

/-- Reads of one shape share their fingerprint. -/
theorem SameReadShape.fingerprint {a b : ReadRequest} (h : SameReadShape a b) :
    fingerprintProtoReadRequest a = fingerprintProtoReadRequest b := by
  rw [fingerprintProtoReadRequest, fingerprintProtoReadRequest, h.table, h.index, h.columns]

end PreparedOperation

end GoogleCloudRust

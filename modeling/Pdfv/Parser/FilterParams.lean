import Pdfv.Parser.Stream
import Mathlib.Data.List.Induction
import Mathlib.Tactic.ByContra
/-!
# Filters and their parameters

Which parameters every filter of a stream is decoded with (`appliedFilters`), beside the ones that
stand at the filter's place in the stream dictionary (`alignedFilters`). The filters are picked out of
`/Filter` and the parameters are a prefix of `/DecodeParms`, so an entry of `/Filter` that is left out
moves all later filters to the parameters of an earlier place.
-/

namespace Pdfv

open Fallible

/-! ## The places of a stream dictionary -/

/-- The entries of `/Filter`, a name or an array. -/
def filterEntries (dictionary : Dictionary) : List CosObject :=
  match dictionary.get "Filter" with
  | some (.name name) => [.name name]
  | some (.array values) => values
  | _ => []

/-- The filter at a place, when it is a name and not the identity crypt filter. -/
def filterAt (dictionary : Dictionary) (place : Nat) : Option PdfName :=
  match (filterEntries dictionary)[place]? with
  | some (.name name) => if isIdentityCryptFilter dictionary place then none else some name
  | _ => none

/-- The parameters at a place of `/DecodeParms`; a dictionary stands at the first place. -/
def paramsAt (dictionary : Dictionary) (place : Nat) : DecodeParams :=
  match dictionary.get "DecodeParms" with
  | some (.dictionary params) => if place = 0 then decodeParamsFromDictionary params else {}
  | some (.array values) =>
    match values[place]? with
    | some (.dictionary params) => decodeParamsFromDictionary params
    | _ => {}
  | _ => {}

/-- The places of the filters that remain. -/
def filterPlaces (dictionary : Dictionary) : List Nat :=
  (List.range (filterEntries dictionary).length).filter fun place =>
    (filterAt dictionary place).isSome

/-- The filters that remain, each with the parameters at its own place. -/
def alignedFilters (dictionary : Dictionary) : List (PdfName × DecodeParams) :=
  (filterPlaces dictionary).map fun place =>
    ((filterAt dictionary place).getD ⟨[]⟩, paramsAt dictionary place)

/-- The number of filters that remain before a place. -/
def filtersBefore (dictionary : Dictionary) (place : Nat) : Nat :=
  (List.range place).countP fun before => (filterAt dictionary before).isSome

/-! ## What decoding applies -/

namespace StreamOf

variable {D : Type}

/-- The filters of a stream with the parameters each of them is decoded with. -/
def appliedFilters (stream : StreamOf D) : List (PdfName × DecodeParams) :=
  stream.filters.zipIdx.map fun f => (f.1, (stream.decodeParams[f.2]?).getD {})

/-- The stream with the filters and the parameters of a stream dictionary. -/
def withFilters (stream : StreamOf D) (dictionary : Dictionary) : StreamOf D :=
  { stream with
    filters := streamFilters dictionary
    decodeParams := streamDecodeParams dictionary (streamFilters dictionary).length }

end StreamOf

/-- Decoding through filters with their parameters, one after the other. -/
def decodeThrough (registry : DecoderRegistry) (limits : ResourceLimits)
    (filters : List (PdfName × DecodeParams)) (raw : Bytes) : Except ParseError DecodedStream := do
  let decoded ← filters.foldlM (fun decoded f => applyFilter registry limits f.1 f.2 decoded)
    ⟨raw, []⟩
  enforceDecodedLen decoded.bytes.length limits.maxStreamDecodeBytes
  return decoded

theorem applyFilters_eq (registry : DecoderRegistry) (limits : ResourceLimits)
    (decodeParams : List DecodeParams) (filters : List PdfName) (index : Nat)
    (decoded : DecodedStream) :
    applyFilters registry limits decodeParams index filters decoded
      = ((filters.zipIdx index).map fun f => (f.1, (decodeParams[f.2]?).getD {})).foldlM
        (fun decoded f => applyFilter registry limits f.1 f.2 decoded) decoded := by
  induction filters generalizing index decoded with
  | nil => rfl
  | cons filter filters ih =>
    rw [applyFilters, List.zipIdx_cons, List.map_cons, List.foldlM_cons]
    exact congrArg _ (funext fun decoded => ih (index + 1) decoded)

/-- Decoding goes through the applied filters. -/
theorem decodedBytesWithRegistry_eq {D : Type} (stream : StreamOf D) (limits : ResourceLimits)
    (registry : DecoderRegistry) :
    stream.decodedBytesWithRegistry limits registry
      = stream.rawBytes >>= decodeThrough registry limits stream.appliedFilters := by
  unfold StreamOf.decodedBytesWithRegistry decodeThrough StreamOf.appliedFilters
  simp only [applyFilters_eq]

theorem zipIdx_lookup {α β γ : Type} (f : α → β) (g : α → γ) (default : γ) (l : List α) :
    (l.map f).zipIdx.map (fun x => (x.1, ((l.map g)[x.2]?).getD default))
      = l.map fun a => (f a, g a) := by
  apply List.ext_getElem
  · simp
  · intro i hi _
    simp only [List.length_map, List.length_zipIdx] at hi
    simp [hi]

/-- Leaving the crypt filters out leaves every other filter with its parameters. -/
theorem appliedFilters_removeCryptFilters {D : Type} (stream : StreamOf D) :
    stream.removeCryptFilters.appliedFilters
      = stream.appliedFilters.filter fun f => !f.1.matchesText "Crypt" := by
  unfold StreamOf.appliedFilters StreamOf.removeCryptFilters
  dsimp only
  rw [zipIdx_lookup, List.filter_map]
  rfl

/-! ## Alignment -/

theorem filterMap_eq_map {α β : Type} (f : α → Option β) (default : β) (l : List α) :
    l.filterMap f = (l.filter fun a => (f a).isSome).map fun a => (f a).getD default := by
  induction l with
  | nil => rfl
  | cons a l ih =>
    cases hf : f a with
    | none => simp [hf, ih]
    | some b => simp [hf, ih]

theorem filterMap_zipIdx {α β : Type} (f : α × Nat → Option β) (l : List α) :
    l.zipIdx.filterMap f
      = (List.range l.length).filterMap fun i => (l[i]?).bind fun a => f (a, i) := by
  induction l using List.reverseRecOn with
  | nil => rfl
  | append_singleton l a ih =>
    rw [List.zipIdx_append, List.filterMap_append, ih, List.length_append, List.length_singleton,
      List.range_succ, List.filterMap_append]
    congr 1
    · refine List.filterMap_congr fun i hi => ?_
      rw [List.getElem?_append_left (List.mem_range.mp hi)]
    · simp only [List.zipIdx_singleton, Nat.zero_add, List.filterMap_cons, List.filterMap_nil,
        List.getElem?_concat_length, Option.bind_some]

/-- A property of the places that pass a test, each with the number of such places before it. -/
theorem filter_range_forall (p : Nat → Bool) (P : Nat → Nat → Prop) (n : Nat) :
    (∀ x ∈ ((List.range n).filter p).zipIdx, P x.2 x.1)
      ↔ ∀ k, k < n → p k → P ((List.range k).countP p) k := by
  induction n with
  | zero => simp
  | succ n ih =>
    rw [List.range_succ, List.filter_append, List.zipIdx_append, List.forall_mem_append, ih,
      Nat.zero_add, ← List.countP_eq_length_filter]
    constructor
    · rintro ⟨hbefore, hlast⟩ k hk hp
      rcases Nat.lt_succ_iff_lt_or_eq.mp hk with hk | rfl
      · exact hbefore k hk hp
      · refine hlast (k, (List.range k).countP p) ?_
        rw [List.filter_cons_of_pos hp, List.filter_nil, List.zipIdx_singleton]
        exact List.mem_singleton_self _
    · intro h
      refine ⟨fun k hk => h k (by omega), fun x hx => ?_⟩
      by_cases hp : p n
      · simp only [hp, List.filter_cons_of_pos, List.filter_nil, List.zipIdx_singleton,
          List.mem_singleton] at hx
        rw [hx]
        exact h n (Nat.lt_succ_self n) hp
      · simp [hp] at hx

theorem map_zipIdx_eq_iff {α β : Type} (f : α × Nat → β) (g : α → β) (l : List α) :
    l.zipIdx.map f = l.map g ↔ ∀ x ∈ l.zipIdx, f x = g x.1 := by
  have hfst : l.map g = l.zipIdx.map fun x => g x.1 := by
    conv_lhs => rw [← List.zipIdx_map_fst 0 l, List.map_map]
    rfl
  rw [hfst, List.map_inj_left]

section Dictionary

variable (dictionary : Dictionary)

/-- The filters are those at the places that remain. -/
theorem streamFilters_eq :
    streamFilters dictionary
      = (filterPlaces dictionary).map fun place => (filterAt dictionary place).getD ⟨[]⟩ := by
  unfold filterPlaces
  rw [← filterMap_eq_map]
  cases hfilter : dictionary.get "Filter" with
  | none => simp [streamFilters, filterEntries, hfilter]
  | some entry =>
    cases entry with
    | name name =>
      have hat : filterAt dictionary 0
          = if isIdentityCryptFilter dictionary 0 then none else some name := by
        simp [filterAt, filterEntries, hfilter]
      simp only [streamFilters, filterEntries, hfilter, List.length_singleton, List.range_one,
        List.filterMap_cons, List.filterMap_nil, hat]
      split <;> rfl
    | array values =>
      simp only [streamFilters, filterEntries, hfilter]
      rw [filterMap_zipIdx]
      refine List.filterMap_congr fun place _ => ?_
      simp only [filterAt, filterEntries, hfilter]
      cases values[place]? with
      | none => rfl
      | some value => cases value <;> rfl
    | _ => simp [streamFilters, filterEntries, hfilter]

/-- The parameters of a place that is within the number of filters. -/
theorem streamDecodeParams_getD {count place : Nat} (h : place < count) :
    ((streamDecodeParams dictionary count)[place]?).getD {} = paramsAt dictionary place := by
  cases hparams : dictionary.get "DecodeParms" with
  | none => simp [streamDecodeParams, paramsAt, hparams, h]
  | some entry =>
    cases entry with
    | dictionary params =>
      cases place with
      | zero => simp [streamDecodeParams, paramsAt, hparams]
      | succ place => simp [streamDecodeParams, paramsAt, hparams]
    | array values =>
      simp only [streamDecodeParams, paramsAt, hparams, List.getElem?_map,
        List.getElem?_take_of_lt h]
      cases values[place]? with
      | none => rfl
      | some value => cases value <;> rfl
    | _ => simp [streamDecodeParams, paramsAt, hparams, h]

/-- A filter is decoded with the parameters at its position among the filters that remain. -/
theorem appliedFilters_withFilters {D : Type} (stream : StreamOf D) :
    (stream.withFilters dictionary).appliedFilters
      = (filterPlaces dictionary).zipIdx.map fun place =>
        ((filterAt dictionary place.1).getD ⟨[]⟩, paramsAt dictionary place.2) := by
  unfold StreamOf.appliedFilters StreamOf.withFilters
  dsimp only
  rw [streamFilters_eq, List.length_map, List.zipIdx_map, List.map_map]
  refine List.map_congr_left fun place hplace => ?_
  have hlt := List.snd_lt_of_mem_zipIdx hplace
  simp only [Function.comp_apply, Prod.map_fst, Prod.map_snd, id_eq]
  rw [streamDecodeParams_getD dictionary (by simpa using hlt)]

/-- Each filter of a stream dictionary is decoded with the parameters at its own place exactly when
they are the same as those at the place it has among the filters that remain. -/
theorem appliedFilters_aligned_iff {D : Type} (stream : StreamOf D) :
    (stream.withFilters dictionary).appliedFilters = alignedFilters dictionary ↔
      ∀ place, (filterAt dictionary place).isSome →
        paramsAt dictionary (filtersBefore dictionary place) = paramsAt dictionary place := by
  have hinside : ∀ place, (filterAt dictionary place).isSome →
      place < (filterEntries dictionary).length := by
    intro place hplace
    by_contra hout
    simp [filterAt, List.getElem?_eq_none (Nat.not_lt.mp hout)] at hplace
  rw [appliedFilters_withFilters, alignedFilters, filterPlaces, map_zipIdx_eq_iff,
    filter_range_forall _ fun position place =>
      ((filterAt dictionary place).getD ⟨[]⟩, paramsAt dictionary position)
        = ((filterAt dictionary place).getD ⟨[]⟩, paramsAt dictionary place)]
  constructor
  · intro h place hplace
    exact (Prod.mk.inj (h place (hinside place hplace) hplace)).2
  · intro h place _ hplace
    exact congrArg _ (h place hplace)

end Dictionary

/-- The stream reader takes its filters and parameters from the stream dictionary. -/
theorem parseStream_withFilters {storage : SourceStorage} {limits : ResourceLimits}
    {key : ObjectKey} {dictionary : Dictionary} {pos pos' : Nat} {log log' : FactLog}
    {stream : StreamObject}
    (h : parseStream storage limits key dictionary pos log = .ok (stream, pos', log')) :
    stream.withFilters dictionary = stream := by
  unfold parseStream at h
  obtain ⟨start, -, h⟩ := bind_eq_ok.mp h
  obtain ⟨-, -, h⟩ := bind_eq_ok.mp h
  obtain ⟨⟨dataEnd, endstreamPos⟩, -, h⟩ := bind_eq_ok.mp h
  obtain ⟨stop, -, h⟩ := bind_eq_ok.mp h
  obtain ⟨⟨rawSource, rawRange⟩, -, h⟩ := bind_eq_ok.mp h
  obtain ⟨rfl, -, -⟩ := Prod.mk.inj (pure_eq_ok.mp h) |>.imp_right Prod.mk.inj
  rfl

/-- Filters and decode parameters stay aligned, when a stream dictionary is read and after the crypt
filters were left out, exactly when no filter that remains has other parameters at its place in
`/Filter` than at its place among the filters that remain. -/
theorem filterParams_aligned_iff {D : Type} (stream : StreamOf D) (dictionary : Dictionary) :
    (∀ limits registry,
      (stream.withFilters dictionary).decodedBytesWithRegistry limits registry
          = stream.rawBytes >>= decodeThrough registry limits
            (stream.withFilters dictionary).appliedFilters ∧
        (stream.withFilters dictionary).removeCryptFilters.decodedBytesWithRegistry limits registry
          = stream.rawBytes >>= decodeThrough registry limits
            (stream.withFilters dictionary).removeCryptFilters.appliedFilters) ∧
    (((stream.withFilters dictionary).appliedFilters = alignedFilters dictionary ∧
        (stream.withFilters dictionary).removeCryptFilters.appliedFilters
          = (alignedFilters dictionary).filter fun f => !f.1.matchesText "Crypt") ↔
      ∀ place, (filterAt dictionary place).isSome →
        paramsAt dictionary (filtersBefore dictionary place) = paramsAt dictionary place) := by
  constructor
  · intro limits registry
    exact ⟨decodedBytesWithRegistry_eq _ limits registry,
      decodedBytesWithRegistry_eq _ limits registry⟩
  · rw [← appliedFilters_aligned_iff dictionary stream]
    constructor
    · exact fun h => h.1
    · intro h
      exact ⟨h, by rw [appliedFilters_removeCryptFilters, h]⟩

/-- An identity crypt filter in front of a Flate filter: the crypt filter leaves its parameters to the
Flate filter. -/
def cryptFirst : Dictionary :=
  [(PdfName.fromStatic "DecodeParms", .array [
      .dictionary [(PdfName.fromStatic "Name", .name (PdfName.fromStatic "Identity"))],
      .dictionary [(PdfName.fromStatic "Predictor", .integer 12)]]),
    (PdfName.fromStatic "Filter",
      .array [.name (PdfName.fromStatic "Crypt"), .name (PdfName.fromStatic "FlateDecode")])]

/-- An empty stream with this dictionary. -/
def cryptFirstStream : StreamObject :=
  ⟨cryptFirst, ⟨0, 0⟩, none, 0, [], [], [], true, true⟩

theorem filterParams_misaligned :
    (cryptFirstStream.withFilters cryptFirst).appliedFilters ≠ alignedFilters cryptFirst ∧
      (cryptFirstStream.withFilters cryptFirst).appliedFilters
        = [(PdfName.fromStatic "FlateDecode",
          { cryptFilterName := some (PdfName.fromStatic "Identity") })] ∧
      alignedFilters cryptFirst
        = [(PdfName.fromStatic "FlateDecode", { predictor := 12 })] := by
  decide

end Pdfv

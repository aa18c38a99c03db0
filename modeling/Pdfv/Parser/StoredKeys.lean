import Pdfv.Parser.LimitInvariant
/-!
# Objects are stored under their own keys

Every object enters the store of a document through `insertObject`, and decryption keeps the keys. So
no two objects of a parsed document have one key (`StoreKeyed.eq_of_key`).
-/

namespace Pdfv

open Loop Fallible

/-- Every object is stored under its own key. -/
def StoreKeyed (objects : ObjectStore) : Prop :=
  ∀ entry ∈ objects.entries, entry.2.key = entry.1

namespace StoreKeyed

variable {objects : ObjectStore}

theorem empty : StoreKeyed OrdMap.empty := by
  intro entry hentry
  cases hentry

theorem insertObject (h : StoreKeyed objects) (object : IndirectObject) :
    StoreKeyed (objects.insertObject object) := by
  intro entry hentry
  rcases OrdList.mem_insert hentry with rfl | hold
  · rfl
  · exact h entry hold

/-- Two stored objects with one key are one. -/
theorem eq_of_key (h : StoreKeyed objects) {a b : IndirectObject} (ha : a ∈ objects.values)
    (hb : b ∈ objects.values) (hkey : a.key = b.key) : a = b := by
  obtain ⟨x, hx, rfl⟩ := List.mem_map.mp ha
  obtain ⟨y, hy, rfl⟩ := List.mem_map.mp hb
  have hfound : ∀ entry ∈ objects.entries, objects.get? entry.2.key = some entry.2 := by
    intro entry hentry
    rw [h entry hentry]
    exact OrdMap.mem_entries_iff.mp hentry
  have hsame := hfound x hx
  rw [hkey, hfound y hy] at hsame
  exact (Option.some.inj hsame).symm

end StoreKeyed

section Scan

variable {storage : SourceStorage} {limits : ResourceLimits} {s s' : ScanState}

theorem scanObject_keyed (hs : StoreKeyed s.objects) (h : scanObject storage limits s = .ok s') :
    StoreKeyed s'.objects := by
  simp only [scanObject, bind_eq_ok] at h
  obtain ⟨found, -, h⟩ := h
  cases found with
  | none =>
    cases h
    exact hs
  | some found =>
    dsimp only [insertScanned] at h
    split at h
    · cases h
    · cases h
      exact hs.insertObject _

theorem scanStep_keyed (hs : StoreKeyed s.objects) (h : scanStep storage limits s = .next s') :
    StoreKeyed s'.objects := by
  rcases scanStep_next h with rfl | ⟨t, rfl, ht | ht | ht⟩
  · exact hs
  · rw [parseXrefAndTrailer_objects ht]
    exact hs
  · rw [parseTrailer_objects ht]
    exact hs
  · refine scanObject_keyed ?_ ht
    exact hs

theorem scanLoop_keyed {fuel : Nat} (hs : StoreKeyed s.objects)
    (h : runLoop (scanStep storage limits) (fun t => .ok t) fuel s = .ok s') :
    StoreKeyed s'.objects := by
  refine runLoop_inv (fun t : ScanState => StoreKeyed t.objects)
    (fun r : Except ParseError ScanState => ∀ t, r = .ok t → StoreKeyed t.objects)
    ?_ ?_ ?_ hs s' h
  · intro t t' ht hstep
    exact scanStep_keyed (s := t) ht hstep
  · rintro t r ht hstep u rfl
    rcases scanStep_done_ok hstep with rfl | hu
    · exact ht
    · simp only [parsePostEofFact, bind_eq_ok, pure_eq_ok] at hu
      obtain ⟨pos, -, rest, -, rfl⟩ := hu
      exact ht
  · rintro t ht u ⟨⟩
    exact ht

theorem scanDocument_keyed {version : PdfVersion}
    (h : scanDocument storage limits = .ok (version, s)) : StoreKeyed s.objects := by
  simp only [scanDocument, bind_eq_ok, pure_eq_ok] at h
  obtain ⟨⟨headerOffset, v, pos, warnings⟩, -, t, hscan, hres⟩ := h
  cases hres
  exact scanLoop_keyed StoreKeyed.empty hscan

end Scan

section Document

variable {crates : Crates} {limits : ResourceLimits} {registry : DecoderRegistry}
  {objects objects' : ObjectStore}

theorem decryptObjects_keyed {dictionary : EncryptionDictionary} {fileKey : Bytes}
    (h : StoreKeyed objects) :
    StoreKeyed (decryptObjects crates limits dictionary fileKey objects).1 := by
  intro entry hentry
  rcases OrdList.mem_mutateValues hentry with hold | ⟨old, hold, rfl⟩
  · exact h entry hold
  · dsimp only
    unfold decryptIndirectObject
    split
    · exact h old hold
    · exact h old hold

theorem decryptDocument_keyed {trailers : List Trailer} {secret : Bytes}
    {result : DecryptResult EncryptionSummary}
    (h : decryptDocument crates limits objects trailers secret = (objects', result))
    (hobjects : StoreKeyed objects) : StoreKeyed objects' := by
  unfold decryptDocument at h
  split at h
  · cases h
    exact hobjects
  · split at h
    · cases h
      exact hobjects
    · cases h
      exact hobjects
    · rename_i encryption _ _ fileKey _
      have hwalk : StoreKeyed (decryptObjects crates limits encryption fileKey objects).1 :=
        decryptObjects_keyed hobjects
      split at h
      · rename_i store e hstore
        cases h
        rwa [hstore] at hwalk
      · rename_i store hstore
        cases h
        rwa [hstore] at hwalk

theorem materialize_keyed {trailers trailers' : List Trailer} {log log' : FactLog}
    (hobjects : StoreKeyed objects)
    (h : materializeStreamBackedStructures limits registry objects trailers log
      = .ok (objects', trailers', log')) : StoreKeyed objects' := by
  simp only [materializeStreamBackedStructures, bind_eq_ok, pure_eq_ok] at h
  obtain ⟨t, -, store, hinsert, hres⟩ := h
  cases hres
  have hstep : ∀ object ∈ t.expanded, ∀ store store' : ObjectStore, StoreKeyed store →
      insertExpanded limits store object = .ok store' → StoreKeyed store' := by
    intro object _ store store' hstore hinsert
    unfold insertExpanded at hinsert
    split at hinsert
    · split at hinsert
      · cases hinsert
      · cases hinsert
        exact hstore.insertObject object
    · cases hinsert
      exact hstore
  exact foldlM_inv hstep hobjects hinsert

/-- Every object of a parsed document is stored under its own key. -/
theorem parseWithOptions_keyed {parser : Parser} {source : Bytes} {secret : Option Bytes}
    {doc : ParsedDocument} (h : parser.parseWithOptions crates source secret = .ok doc) :
    StoreKeyed doc.objects := by
  obtain ⟨version, s, gate, hscan, hgate, hdoc⟩ := parseWithOptions_cases h
  have hs := scanDocument_keyed hscan
  rcases hdoc with ⟨objects, log, rfl, rfl⟩ | ⟨objects, log, objects', trailers, log', rfl, hmat, rfl⟩
  · obtain ⟨rfl, -⟩ := encryptionGate_finished hgate (scanDocument_log hscan)
    exact hs
  · refine materialize_keyed ?_ hmat
    rcases encryptionGate_cases hgate with ⟨_, _, _, _, hfinished, _⟩ |
        ⟨store, secret, summary, hproceed, -, -, hdecrypt⟩ | ⟨hproceed, -⟩
    · cases hfinished
    · cases hproceed
      exact decryptDocument_keyed hdecrypt hs
    · cases hproceed
      exact hs

end Document

end Pdfv

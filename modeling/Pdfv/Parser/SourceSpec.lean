import Pdfv.Parser.Source
/-!
# Both storages read the same bytes

The chunked search of the spill file finds what a plain search finds
(`findBytesInSpillFile_eq`): after the chunks up to `start + k` were read, no occurrence ends there,
and the bytes carried over are the last `needle.length - 1` of them (`SearchInv`). With it, every
read operation of a spill file that holds the source equals the one of the memory source
(`reader_spillFile`).
-/

namespace Pdfv

open Search

theorem subrange_eq_some {bytes : Bytes} {start stop : Nat} (h : start ≤ stop)
    (hstop : stop ≤ bytes.length) :
    subrange bytes start stop = some ((bytes.take stop).drop start) := by
  rw [subrange, if_pos ⟨h, hstop⟩, List.drop_take]

theorem findBytes_zero (haystack needle : Bytes) :
    findBytes haystack needle 0 = findWindow needle haystack := by
  simp [findBytes]

/-! ## The chunked search -/

/-- What holds before a pass of the chunked search over `hay`, the bytes from `start`: `k` bytes
were read, `carried` holds the last of them, and no occurrence ends among them. -/
structure SearchInv (needle hay : Bytes) (k : Nat) (carried : Bytes) : Prop where
  read_le : k ≤ hay.length
  carried_length : carried.length = min k (needle.length - 1)
  carried_eq : carried = (hay.take k).drop (k - carried.length)
  free : ∀ j, Occurs needle hay j → k < j + needle.length

theorem SearchInv.start (needle hay : Bytes) (hne : needle ≠ []) : SearchInv needle hay 0 [] := by
  have hpos := List.length_pos_iff.mpr hne
  exact ⟨by omega, by simp, by simp, fun j _ => by omega⟩

/-- The carried bytes and the next chunk are a window of the bytes read so far. -/
theorem window_eq {hay : Bytes} {d k m : Nat} (hdk : d ≤ k) (hkm : k ≤ m) (hk : k ≤ hay.length) :
    (hay.take k).drop d ++ (hay.take m).drop k = (hay.take m).drop d := by
  have hsplit : hay.take m = hay.take k ++ (hay.take m).drop k := by
    conv_lhs => rw [← List.take_append_drop k (hay.take m)]
    rw [List.take_take, min_eq_left hkm]
  conv_rhs => rw [hsplit]
  rw [List.drop_append_of_le_length (by rw [List.length_take]; omega)]

/-- The bytes kept for the next pass are again the last ones read. -/
theorem kept_eq (n : Nat) {hay : Bytes} {d m : Nat} (hdm : d ≤ m) (hm : m ≤ hay.length) :
    (if ((hay.take m).drop d).length > n then keepLast n ((hay.take m).drop d)
      else (hay.take m).drop d)
      = (hay.take m).drop (m - min (m - d) n) := by
  have hlen : ((hay.take m).drop d).length = m - d := by
    rw [List.length_drop, List.length_take]
    omega
  rw [hlen]
  split
  · rw [keepLast, hlen, List.drop_drop]
    congr 1
    omega
  · congr 1
    omega

theorem SearchInv.next {needle hay : Bytes} (hne : needle ≠ []) {k r : Nat} {carried : Bytes}
    (h : SearchInv needle hay k carried) (hr : k + r ≤ hay.length)
    (hnone : findWindow needle ((hay.take (k + r)).drop (k - carried.length)) = none) :
    SearchInv needle hay (k + r)
      ((hay.take (k + r)).drop (k + r - min (k + r - (k - carried.length)) (needle.length - 1)))
    := by
  have hc := h.carried_length
  have hpos := List.length_pos_iff.mpr hne
  have hd : k - carried.length + needle.length ≤ k + 1 ∨ k - carried.length = 0 := by omega
  have hlen : ((hay.take (k + r)).drop
      (k + r - min (k + r - (k - carried.length)) (needle.length - 1))).length
      = min (k + r) (needle.length - 1) := by
    rw [List.length_drop, List.length_take]
    omega
  refine ⟨hr, hlen, ?_, free_of_window hne hd h.free hnone⟩
  rw [hlen]
  congr 1
  omega

/-- One chunk and the search for it, as the loop reads it. -/
theorem readExactAt_chunk {file : Bytes} {start stop k r : Nat} (hstop : stop ≤ file.length)
    (hr : start + k + r ≤ stop) :
    readExactAt file r (start + k)
      = .ok (((((file.take stop).drop start).take (k + r))).drop k) := by
  rw [readExactAt, subrange_eq_some (by omega) (by omega)]
  simp only [Except.ok.injEq, List.drop_take, List.drop_drop, List.take_take]
  congr 1
  omega

theorem spillSearchLoop_eq {file needle : Bytes} (hne : needle ≠ []) {start stop : Nat}
    (hstop : stop ≤ file.length) {fuel k : Nat} {carried : Bytes} (hk : start + k ≤ stop)
    (hfuel : stop - (start + k) < fuel)
    (hinv : SearchInv needle ((file.take stop).drop start) k carried) :
    spillSearchLoop file needle stop fuel (start + k) carried
      = (findWindow needle ((file.take stop).drop start)).map (start + ·) := by
  have hlen : ((file.take stop).drop start).length = stop - start := by
    rw [List.length_drop, List.length_take]
    omega
  induction fuel generalizing k carried with
  | zero => omega
  | succ fuel ih =>
    rw [spillSearchLoop]
    by_cases hlt : start + k < stop
    · rw [if_pos hlt]
      obtain ⟨r, hrdef⟩ : ∃ r, min (stop - (start + k)) spillSearchChunkBytes = r := ⟨_, rfl⟩
      have hr : 0 < r ∧ start + k + r ≤ stop := by
        unfold spillSearchChunkBytes at hrdef
        omega
      simp only [hrdef, readExactAt_chunk hstop hr.2]
      have hc := hinv.carried_length
      have hwin : carried ++ (((file.take stop).drop start).take (k + r)).drop k
          = (((file.take stop).drop start).take (k + r)).drop (k - carried.length) := by
        conv_lhs => rw [hinv.carried_eq]
        exact window_eq (by omega) (by omega) (by omega)
      rw [hwin, findBytes_zero]
      cases hf : findWindow needle
          ((((file.take stop).drop start).take (k + r)).drop (k - carried.length)) with
      | some i =>
        have hd : k - carried.length + needle.length ≤ k + 1 ∨ k - carried.length = 0 := by
          have hpos := List.length_pos_iff.mpr hne
          omega
        rw [findWindow_of_window hne hd hinv.free hf]
        simp only [Option.map_some, Option.some.injEq]
        omega
      | none =>
        simp only
        rw [kept_eq _ (by omega) (by omega), Nat.add_assoc]
        exact ih (by omega) (by omega) (hinv.next hne (by omega) hf)
    · rw [if_neg hlt]
      have hnone : findWindow needle ((file.take stop).drop start) = none := by
        rw [findWindow_eq_none_iff hne]
        intro j hj
        have h1 := hinv.free j hj
        have h2 := hj.add_length_le hne
        omega
      rw [hnone]
      rfl

/-- The chunked search finds what a search of the range as a whole finds, for every needle length and
every range of the file. -/
theorem findBytesInSpillFile_eq {file needle : Bytes} (hne : needle ≠ []) {start stop : Nat}
    (hstart : start ≤ stop) (hstop : stop ≤ file.length) :
    findBytesInSpillFile file needle start stop
      = (findWindow needle ((file.take stop).drop start)).map (start + ·) :=
  spillSearchLoop_eq hne hstop hstart (by omega) (SearchInv.start _ _ hne)

/-- The needle occurs at `p`, from `start` on and before `stop`. -/
def OccursBetween (needle file : Bytes) (start stop p : Nat) : Prop :=
  start ≤ p ∧ p + needle.length ≤ stop ∧ Occurs needle file p

theorem occursBetween_iff {needle file : Bytes} (hne : needle ≠ []) {start stop p : Nat} :
    OccursBetween needle file start stop p
      ↔ ∃ i, p = start + i ∧ Occurs needle ((file.take stop).drop start) i := by
  constructor
  · rintro ⟨hp, hend, hocc⟩
    refine ⟨p - start, by omega, (occurs_window hne).mpr ?_⟩
    rw [Nat.add_sub_cancel' hp]
    exact ⟨hocc, hend⟩
  · rintro ⟨i, rfl, hocc⟩
    obtain ⟨hocc, hend⟩ := (occurs_window hne).mp hocc
    exact ⟨Nat.le_add_right _ _, hend, hocc⟩

/-- The chunked search finds the first position between `start` and `stop`, and nothing when there
is none, like the search in memory. -/
theorem findBytesInSpillFile_first {file needle : Bytes} (hne : needle ≠ []) {start stop : Nat}
    (hstart : start ≤ stop) (hstop : stop ≤ file.length) :
    (∀ p, findBytesInSpillFile file needle start stop = some p
      ↔ OccursBetween needle file start stop p
        ∧ ∀ q, OccursBetween needle file start stop q → p ≤ q)
    ∧ (findBytesInSpillFile file needle start stop = none
      ↔ ∀ p, ¬ OccursBetween needle file start stop p)
    ∧ findBytesInSpillFile file needle start stop
      = (SourceStorage.memory file).findBytes needle start stop := by
  have hsearch := findBytesInSpillFile_eq hne hstart hstop
  refine ⟨fun p => ?_, ?_, ?_⟩
  · rw [hsearch, Option.map_eq_some_iff]
    constructor
    · rintro ⟨i, hi, rfl⟩
      obtain ⟨hocc, hmin⟩ := (findWindow_eq_some_iff hne).mp hi
      refine ⟨(occursBetween_iff hne).mpr ⟨i, rfl, hocc⟩, fun q hq => ?_⟩
      obtain ⟨j, rfl, hj⟩ := (occursBetween_iff hne).mp hq
      by_contra hlt
      exact hmin j (by omega) hj
    · rintro ⟨hp, hmin⟩
      obtain ⟨i, rfl, hocc⟩ := (occursBetween_iff hne).mp hp
      refine ⟨i, (findWindow_eq_some_iff hne).mpr ⟨hocc, fun j hj hj' => ?_⟩, rfl⟩
      have := hmin (start + j) ((occursBetween_iff hne).mpr ⟨j, rfl, hj'⟩)
      omega
  · rw [hsearch, Option.map_eq_none_iff, findWindow_eq_none_iff hne]
    constructor
    · intro h p hp
      obtain ⟨i, -, hocc⟩ := (occursBetween_iff hne).mp hp
      exact h i hocc
    · intro h i hocc
      exact h (start + i) ((occursBetween_iff hne).mpr ⟨i, rfl, hocc⟩)
  · have hin : ¬ (needle = [] ∨ start > stop ∨ stop > (SourceStorage.memory file).len) := by
      rintro (hnil | hafter | hlong)
      · exact hne hnil
      · omega
      · exact absurd hlong (Nat.not_lt.mpr hstop)
    have hslice : (SourceStorage.memory file).slice start stop
        = .ok ((file.take stop).drop start) := by
      unfold SourceStorage.slice
      rw [if_neg fun h => hin (.inr h)]
      simp only [subrange_eq_some hstart hstop]
    unfold SourceStorage.findBytes
    rw [if_neg hin, hsearch, hslice]
    simp only [findBytes_zero]

/-- A needle of which a beginning stands before it. -/
theorem findBytesInSpillFile_first_repeated :
    findBytesInSpillFile [7, 1, 1, 1, 2, 1, 2] [1, 1, 2] 1 7 = some 2
      ∧ ∀ q, OccursBetween [1, 1, 2] [7, 1, 1, 1, 2, 1, 2] 1 7 q → 2 ≤ q := by
  have hfirst : findBytesInSpillFile [7, 1, 1, 1, 2, 1, 2] [1, 1, 2] 1 7 = some 2 := by decide
  exact ⟨hfirst, (((findBytesInSpillFile_first (List.cons_ne_nil _ _) (by decide) (by decide)).1 2).mp
    hfirst).2⟩

/-! ## The reader -/

namespace SourceStorage

@[simp] theorem len_memory (bytes : Bytes) : (memory bytes).len = bytes.length := rfl

@[simp] theorem len_spillFile (file : Bytes) (n : Nat) : (spillFile file n).len = n := rfl

theorem slice_outside {storage : SourceStorage} {start stop : Nat}
    (h : start > stop ∨ stop > storage.len) :
    storage.slice start stop = .error (.bad "byte range out of bounds") := by
  unfold slice
  rw [if_pos h]

theorem slice_memory {bytes : Bytes} {start stop : Nat} (h : start ≤ stop)
    (hstop : stop ≤ bytes.length) :
    (memory bytes).slice start stop = .ok ((bytes.take stop).drop start) := by
  have hin : ¬ (start > stop ∨ stop > (memory bytes).len) := by
    rw [len_memory]
    omega
  unfold slice
  rw [if_neg hin]
  simp only [subrange_eq_some h hstop]

theorem slice_spillFile (source : Bytes) :
    (spillFile source source.length).slice = (memory source).slice := by
  funext start stop
  by_cases h : start ≤ stop ∧ stop ≤ source.length
  · have hin : ¬ (start > stop ∨ stop > (spillFile source source.length).len) := by
      rw [len_spillFile]
      omega
    rw [slice_memory h.1 h.2]
    unfold slice
    rw [if_neg hin]
    simp only [readExactAt, Nat.add_sub_cancel' h.1, subrange_eq_some h.1 h.2]
  · have hout : start > stop ∨ stop > source.length := by omega
    rw [slice_outside hout, slice_outside hout]

theorem byte_memory (bytes : Bytes) (pos : Nat) : (memory bytes).byte pos = bytes[pos]? := by
  unfold byte
  by_cases h : pos ≥ (memory bytes).len
  · rw [if_pos h, List.getElem?_eq_none h]
  · rw [if_neg h]

theorem byte_spillFile (source : Bytes) :
    (spillFile source source.length).byte = (memory source).byte := by
  funext pos
  rw [byte_memory]
  unfold byte
  by_cases h : pos ≥ (spillFile source source.length).len
  · rw [if_pos h, List.getElem?_eq_none h]
  · rw [if_neg h]
    rw [len_spillFile] at h
    have hread : readExactAt source 1 pos = .ok ((source.take (pos + 1)).drop pos) := by
      rw [readExactAt, subrange_eq_some (by omega) (by omega)]
    simp only [hread, List.head?_drop, List.getElem?_take]
    rw [if_pos (by omega)]

theorem startsWith_spillFile (source : Bytes) :
    (spillFile source source.length).startsWith = (memory source).startsWith := by
  funext pos expected
  simp only [startsWith, slice_spillFile]

theorem findBytes_spillFile (source : Bytes) :
    (spillFile source source.length).findBytes = (memory source).findBytes := by
  funext needle start stop
  unfold findBytes
  by_cases h : needle = [] ∨ start > stop ∨ stop > source.length
  · have hspill : needle = [] ∨ start > stop ∨ stop > (spillFile source source.length).len := h
    have hmem : needle = [] ∨ start > stop ∨ stop > (memory source).len := h
    rw [if_pos hspill, if_pos hmem]
  · have hspill : ¬ (needle = [] ∨ start > stop ∨ stop > (spillFile source source.length).len) := h
    have hmem : ¬ (needle = [] ∨ start > stop ∨ stop > (memory source).len) := h
    have hle : start ≤ stop ∧ stop ≤ source.length := by omega
    rw [if_neg hspill, if_neg hmem]
    simp only [slice_memory hle.1 hle.2, findBytes_zero]
    exact findBytesInSpillFile_eq (fun hnil => h (.inl hnil)) hle.1 hle.2

end SourceStorage

/-- **A spill file that holds the source reads exactly like the memory source.** -/
theorem reader_spillFile (source : Bytes) :
    (SourceStorage.spillFile source source.length).reader
      = (SourceStorage.memory source).reader := by
  simp only [SourceStorage.reader, SourceStorage.slice_spillFile, SourceStorage.byte_spillFile,
    SourceStorage.startsWith_spillFile, SourceStorage.findBytes_spillFile, SourceStorage.len]

/-- The storage of a source reads it like the memory source, whatever the threshold. -/
theorem reader_fromSource (source : Bytes) (threshold : Nat) :
    (SourceStorage.fromSource source threshold).reader = (SourceStorage.memory source).reader := by
  unfold SourceStorage.fromSource
  split
  · rfl
  · exact reader_spillFile source

end Pdfv

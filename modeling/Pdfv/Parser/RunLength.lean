import Pdfv.Parser.Ascii85
/-!
# RunLength decoding

`RunSegment` says what an encoder may write: literal runs of up to 128 bytes and repeats of one byte, in
any order. The decoder gives back what the segments stand for, up to the length limit, and on any input
it ends within the limit.
-/

namespace Pdfv

open Loop Fallible

/-- A segment of a RunLength encoding: a literal run or a repeated byte. -/
inductive RunSegment where
  | literal (bytes : Bytes) (hpos : 0 < bytes.length) (hlen : bytes.length ≤ 128)
  | repeated (byte : UInt8) (count : Nat) (hlow : 2 ≤ count) (hhigh : count ≤ 128)

namespace RunSegment

/-- The bytes that a segment stands for. -/
def bytes : RunSegment → Bytes
  | literal bytes _ _ => bytes
  | repeated byte count _ _ => List.replicate count byte

/-- The length byte of a segment and what follows it. -/
def encode : RunSegment → Bytes
  | literal bytes _ _ => UInt8.ofNat (bytes.length - 1) :: bytes
  | repeated byte count _ _ => [UInt8.ofNat (257 - count), byte]

end RunSegment

/-- The end of the data: the byte 128 with whatever follows it, or the end of the input. -/
def runLengthEnd : Option Bytes → Bytes
  | some rest => 128 :: rest
  | none => []

/-! ## One segment -/

section Segments

variable {max : Nat}

theorem extendLimited_over {output bytes : Bytes} (h : ¬ output.length + bytes.length ≤ max) :
    extendLimited output bytes max = .error (.limitExceeded "max_stream_decode_bytes") := by
  unfold extendLimited enforceDecodedLen
  rw [if_pos (Nat.lt_of_not_le h)]
  rfl

theorem pushLimitedByte_eq (output : Bytes) (byte : UInt8) :
    pushLimitedByte output byte max = extendLimited output [byte] max :=
  rfl

/-- A repeated byte is appended when the whole run fits. -/
theorem pushRepeated_eq {output : Bytes} {byte : UInt8} {count : Nat} (hout : output.length ≤ max) :
    pushRepeated byte max count output = extendLimited output (List.replicate count byte) max := by
  induction count generalizing output with
  | zero =>
    rw [List.replicate_zero, extendLimited_eq hout, List.append_nil]
    rfl
  | succ count ih =>
    unfold pushRepeated
    rw [pushLimitedByte_eq]
    by_cases hone : output.length + 1 ≤ max
    · have hnext : (output ++ [byte]).length = output.length + 1 := by simp
      rw [extendLimited_eq hone, ok_bind, ih (by omega)]
      by_cases hall : output.length + (count + 1) ≤ max
      · rw [extendLimited_eq (by simp; omega), extendLimited_eq (by simpa using hall)]
        simp [List.replicate_succ]
      · rw [extendLimited_over (by simp; omega), extendLimited_over (by simpa using hall)]
    · rw [extendLimited_over hone, extendLimited_over (by simp; omega)]
      rfl

/-- A pass over a segment appends its bytes. -/
theorem runLengthStep_segment (segment : RunSegment) (front rest output : Bytes)
    (hout : output.length ≤ max) :
    runLengthStep (front ++ (segment.encode ++ rest)) max (output, front.length)
      = continueWith (extendLimited output segment.bytes max)
          (front.length + segment.encode.length) := by
  cases segment with
  | literal bytes hpos hlen =>
    have hbyte : (UInt8.ofNat (bytes.length - 1)).toNat = bytes.length - 1 :=
      UInt8.toNat_ofNat_of_lt' (show bytes.length - 1 < 256 by omega)
    have hne : UInt8.ofNat (bytes.length - 1) ≠ 128 := by
      intro heq
      rw [heq] at hbyte
      have : bytes.length - 1 = 128 := hbyte.symm
      omega
    have hlt : UInt8.ofNat (bytes.length - 1) < 128 := by
      rw [UInt8.lt_iff_toNat_lt, hbyte]
      show bytes.length - 1 < 128
      omega
    have hsum : bytes.length - 1 + 1 = bytes.length := by omega
    have hslice : subrange (front ++ (UInt8.ofNat (bytes.length - 1) :: bytes ++ rest))
        (front.length + 1) (front.length + 1 + bytes.length) = some bytes := by
      unfold subrange
      rw [if_pos (by simp; omega), Nat.add_sub_cancel_left, ← List.drop_drop, List.drop_left,
        List.cons_append, List.drop_succ_cons, List.drop_zero, List.take_left]
    unfold runLengthStep
    simp only [RunSegment.encode, RunSegment.bytes]
    rw [List.getElem?_append_right (Nat.le_refl _), Nat.sub_self, List.cons_append,
      List.getElem?_cons_zero]
    dsimp only
    rw [if_neg hne, if_pos hlt, hbyte, hsum, ← List.cons_append, hslice]
    rw [List.length_cons, Nat.add_right_comm, Nat.add_assoc]
  | repeated byte count hlow hhigh =>
    have hbyte : (UInt8.ofNat (257 - count)).toNat = 257 - count :=
      UInt8.toNat_ofNat_of_lt' (show 257 - count < 256 by omega)
    have hne : UInt8.ofNat (257 - count) ≠ 128 := by
      intro heq
      rw [heq] at hbyte
      have : 257 - count = 128 := hbyte.symm
      omega
    have hlt : ¬ UInt8.ofNat (257 - count) < 128 := by
      rw [UInt8.lt_iff_toNat_lt, hbyte]
      show ¬ 257 - count < 128
      omega
    have hcount : 257 - (257 - count) = count := by omega
    unfold runLengthStep
    simp only [RunSegment.encode, RunSegment.bytes, List.cons_append, List.nil_append]
    rw [List.getElem?_append_right (Nat.le_refl _), Nat.sub_self, List.getElem?_cons_zero]
    dsimp only
    rw [if_neg hne, if_neg hlt, List.getElem?_append_right (Nat.le_add_right _ 1), Nat.add_sub_cancel_left]
    dsimp only [List.getElem?_cons_succ, List.getElem?_cons_zero]
    rw [hbyte, hcount, pushRepeated_eq hout]
    rfl

/-- The end of the data ends the loop. -/
theorem runLengthStep_end (front output : Bytes) (tail : Option Bytes) :
    runLengthStep (front ++ runLengthEnd tail) max (output, front.length) = .done (.ok output) := by
  cases tail with
  | none =>
    unfold runLengthStep runLengthEnd
    dsimp only
    rw [List.append_nil, List.getElem?_eq_none (Nat.le_refl _)]
  | some rest =>
    unfold runLengthStep runLengthEnd
    dsimp only
    rw [List.getElem?_append_right (Nat.le_refl _), Nat.sub_self, List.getElem?_cons_zero]
    rfl

/-! ## All segments -/

/-- The bytes, if the limit allows them. -/
def limitedOutput (max : Nat) (bytes : Bytes) : Except ParseError Bytes :=
  if bytes.length ≤ max then .ok bytes else .error (.limitExceeded "max_stream_decode_bytes")

/-- Segments lead the loop to the output that the limit allows. -/
theorem runLength_finishes (segments : List RunSegment) (tail : Option Bytes) (front output : Bytes)
    (hout : output.length ≤ max) :
    Finishes (runLengthStep (front ++ (segments.flatMap RunSegment.encode ++ runLengthEnd tail)) max)
      (output, front.length) (limitedOutput max (output ++ segments.flatMap RunSegment.bytes)) := by
  induction segments generalizing front output with
  | nil =>
    rw [List.flatMap_nil, List.flatMap_nil, List.nil_append, List.append_nil]
    unfold limitedOutput
    rw [if_pos hout]
    exact .done (runLengthStep_end front output tail)
  | cons segment segments ih =>
    rw [List.flatMap_cons, List.flatMap_cons, List.append_assoc]
    have hstep := @runLengthStep_segment max segment front
      (segments.flatMap RunSegment.encode ++ runLengthEnd tail) output hout
    by_cases hfits : output.length + segment.bytes.length ≤ max
    · rw [extendLimited_eq hfits] at hstep
      refine .next hstep ?_
      have hrest := ih (front ++ segment.encode) (output ++ segment.bytes)
        (by rw [List.length_append]; exact hfits)
      rw [List.append_assoc, List.append_assoc, List.length_append] at hrest
      exact hrest
    · rw [extendLimited_over hfits] at hstep
      unfold limitedOutput
      rw [if_neg (by simp only [List.length_append]; omega)]
      exact .done hstep

end Segments

/-! ## Any input -/

section AnyInput

variable {input : Bytes} {max : Nat}

/-- A pass moves forward. -/
theorem runLengthStep_next {s s' : Bytes × Nat} (h : runLengthStep input max s = .next s') :
    input.length - s'.2 < input.length - s.2 := by
  obtain ⟨output, pos⟩ := s
  have hcontinue : ∀ {result : Except ParseError Bytes} {stop : Nat},
      continueWith result stop = .next s' → s'.2 = stop := by
    intro result stop h
    cases result with
    | ok output =>
      cases h
      rfl
    | error e => cases h
  unfold runLengthStep at h
  dsimp only at h
  split at h
  · cases h
  · rename_i length hget
    have hpos : pos < input.length := (List.getElem?_eq_some_iff.mp hget).1
    split at h
    · cases h
    · split at h
      · split at h
        · cases h
        · rw [hcontinue h]
          omega
      · split at h
        · cases h
        · rw [hcontinue h]
          omega

theorem extendLimited_ok {output bytes output' : Bytes}
    (h : extendLimited output bytes max = .ok output') : output'.length ≤ max := by
  by_cases hfits : output.length + bytes.length ≤ max
  · rw [extendLimited_eq hfits] at h
    cases h
    rw [List.length_append]
    exact hfits
  · rw [extendLimited_over hfits] at h
    cases h

/-- A pass keeps the output within the limit. -/
theorem runLengthStep_limit {s s' : Bytes × Nat} (hout : s.1.length ≤ max)
    (h : runLengthStep input max s = .next s') : s'.1.length ≤ max := by
  obtain ⟨output, pos⟩ := s
  have hcontinue : ∀ {bytes : Bytes} {stop : Nat},
      continueWith (extendLimited output bytes max) stop = .next s' → s'.1.length ≤ max := by
    intro bytes stop h
    cases hextend : extendLimited output bytes max with
    | ok output' =>
      rw [hextend] at h
      cases h
      exact extendLimited_ok hextend
    | error e =>
      rw [hextend] at h
      cases h
  unfold runLengthStep at h
  dsimp only at h
  split at h
  · cases h
  · split at h
    · cases h
    · split at h
      · split at h
        · cases h
        · exact hcontinue h
      · split at h
        · cases h
        · rw [pushRepeated_eq hout] at h
          exact hcontinue h

/-- The output that a pass ends with was there before. -/
theorem runLengthStep_done {s : Bytes × Nat} {output : Bytes}
    (h : runLengthStep input max s = .done (.ok output)) : output = s.1 := by
  obtain ⟨before, pos⟩ := s
  have hcontinue : ∀ {result : Except ParseError Bytes} {stop : Nat},
      continueWith result stop ≠ .done (.ok output) := by
    intro result stop h
    cases result <;> cases h
  unfold runLengthStep at h
  dsimp only at h
  split at h
  · cases h
    rfl
  · split at h
    · cases h
      rfl
    · split at h
      · split at h
        · cases h
        · exact absurd h hcontinue
      · split at h
        · cases h
        · exact absurd h hcontinue

end AnyInput

/-- The loop ends within the limit. -/
theorem finishes_limit {input : Bytes} {max : Nat} {s : Bytes × Nat}
    {result : Except ParseError Bytes} (h : Finishes (runLengthStep input max) s result)
    (hout : s.1.length ≤ max) : ∀ output, result = .ok output → output.length ≤ max := by
  induction h with
  | done hdone =>
    rintro output rfl
    rw [runLengthStep_done hdone]
    exact hout
  | next hnext _ ih => exact ih (runLengthStep_limit hout hnext)

/-- The loop of the decoder. -/
theorem runLengthDecoder_eq (input : Bytes) (params : DecodeParams) (limits : ResourceLimits) :
    ∃ result, Finishes (runLengthStep input limits.maxStreamDecodeBytes) ([], 0) result
      ∧ runLengthDecoder input params limits = result.map (⟨·, false⟩) := by
  have hloop : Finishes (runLengthStep input limits.maxStreamDecodeBytes) ([], 0)
      (runLoop (runLengthStep input limits.maxStreamDecodeBytes) (fun s => .ok s.1)
        (input.length + 1) ([], 0)) :=
    runLoop_finishes (fun _ _ h => runLengthStep_next h) (Nat.lt_succ_of_le (Nat.sub_le _ _))
  refine ⟨_, hloop, ?_⟩
  unfold runLengthDecoder
  cases runLoop (runLengthStep input limits.maxStreamDecodeBytes) (fun s => .ok s.1)
    (input.length + 1) ([], 0) <;> rfl

/-- RunLength decoding gives back the segments, however the data was cut into segments and whether or
not its end is marked, exactly if they fit; on any input it ends, within the limit. -/
theorem runLengthDecoder_segmentation (params : DecodeParams) (limits : ResourceLimits) :
    (∀ (segments : List RunSegment) (tail : Option Bytes),
      runLengthDecoder (segments.flatMap RunSegment.encode ++ runLengthEnd tail) params limits
        = (limitedOutput limits.maxStreamDecodeBytes (segments.flatMap RunSegment.bytes)).map
            (⟨·, false⟩)) ∧
    ∀ input : Bytes, ∃ result,
      Finishes (runLengthStep input limits.maxStreamDecodeBytes) ([], 0) result ∧
      runLengthDecoder input params limits = result.map (⟨·, false⟩) ∧
      ∀ output, result = .ok output → output.length ≤ limits.maxStreamDecodeBytes := by
  constructor
  · intro segments tail
    obtain ⟨result, hfinishes, heq⟩ := runLengthDecoder_eq
      (segments.flatMap RunSegment.encode ++ runLengthEnd tail) params limits
    have hsegments := @runLength_finishes limits.maxStreamDecodeBytes segments tail [] []
      (Nat.zero_le _)
    rw [List.nil_append, List.nil_append] at hsegments
    rw [heq, hfinishes.unique hsegments]
  · intro input
    obtain ⟨result, hfinishes, heq⟩ := runLengthDecoder_eq input params limits
    exact ⟨result, hfinishes, heq, finishes_limit hfinishes (Nat.zero_le _)⟩

end Pdfv

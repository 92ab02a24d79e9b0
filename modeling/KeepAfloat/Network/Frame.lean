import KeepAfloat.Submit.Release

/-! Frames of the Raft connections: a length of four bytes and as many bytes behind it. What
is read off a stream is what was written onto it, frame by frame. -/

namespace KeepAfloat

/-- One contiguous buffer with the length in front. -/
def encodeFrame (payload : List UInt8) : Except String (List UInt8) :=
  if payload.length < 2 ^ 32 then .ok (Bytes.encode 4 payload.length ++ payload)
  else .error "frame payload exceeds the u32 wire length"

/-- A frame is read exactly if its bytes are there and within the limit. -/
theorem readFramedBounded_eq_ok {bytes payload rest : List UInt8} {maxFrameBytes : Nat} :
    readFramedBounded bytes maxFrameBytes = .ok (payload, rest) ↔
      payload.length ≤ maxFrameBytes ∧
        ∃ frame, encodeFrame payload = .ok frame ∧ bytes = frame ++ rest := by
  simp only [readFramedBounded, Checks.bind_eq_ok, Checks.require_eq_ok, exists_const,
    Checks.pure_eq_ok, decide_eq_true_eq, Prod.mk.injEq, encodeFrame]
  constructor
  · rintro ⟨hHeader, hLimit, hBody, rfl, rfl⟩
    have hTake : (bytes.take 4).length = 4 := List.length_take_of_le hHeader
    have hLength : ((bytes.drop 4).take (Bytes.decode (bytes.take 4))).length =
        Bytes.decode (bytes.take 4) := List.length_take_of_le hBody
    have hSmall : Bytes.decode (bytes.take 4) < 256 ^ (bytes.take 4).length := Bytes.decode_lt _
    have hEncode := Bytes.encode_decode (bytes.take 4)
    rw [hTake] at hSmall hEncode
    refine ⟨hLength.trans_le hLimit, _, if_pos (hLength.trans_lt hSmall), ?_⟩
    rw [hLength, hEncode]
    rw [List.append_assoc, List.take_append_drop, List.take_append_drop]
  · rintro ⟨hLimit, frame, hFrame, rfl⟩
    split at hFrame
    · rename_i hSmall
      cases hFrame
      have hDecode : Bytes.decode (Bytes.encode 4 payload.length) = payload.length := by
        rw [Bytes.decode_encode]
        exact Nat.mod_eq_of_lt hSmall
      rw [List.append_assoc, List.take_left' (Bytes.length_encode 4 _),
        List.drop_left' (Bytes.length_encode 4 _), hDecode, List.take_left, List.drop_left]
      simp only [List.length_append, Bytes.length_encode]
      exact ⟨by omega, hLimit, by omega, trivial, trivial⟩
    · cases hFrame

/-- Read as many frames off a stream. -/
def readSeries (maxFrameBytes : Nat) :
    Nat → List UInt8 → Except FrameReadError (List (List UInt8) × List UInt8)
  | 0, bytes => return ([], bytes)
  | count + 1, bytes => do
      let (payload, rest) ← readFramedBounded bytes maxFrameBytes
      let (payloads, rest) ← readSeries maxFrameBytes count rest
      return (payload :: payloads, rest)

/-- A series of frames is read exactly if the stream begins with their encodings: no byte of a
stream is read twice, skipped or taken into another frame. -/
theorem readSeries_exact (maxFrameBytes : Nat) (payloads : List (List UInt8))
    (bytes rest : List UInt8) :
    readSeries maxFrameBytes payloads.length bytes = .ok (payloads, rest) ↔
      (∀ payload ∈ payloads, payload.length ≤ maxFrameBytes) ∧
        ∃ frames, payloads.mapM encodeFrame = .ok frames ∧ bytes = frames.flatten ++ rest := by
  induction payloads generalizing bytes with
  | nil => simp [readSeries, List.mapM_nil, pure, Except.pure]
  | cons payload payloads ih =>
      simp only [List.length_cons, readSeries, Checks.bind_eq_ok, Checks.pure_eq_ok, Prod.exists,
        Prod.mk.injEq, List.cons.injEq, List.mapM_cons, List.forall_mem_cons]
      constructor
      · rintro ⟨_, after, hFirst, _, _, hRest, ⟨rfl, rfl⟩, rfl⟩
        obtain ⟨hLimit, frame, hFrame, rfl⟩ := readFramedBounded_eq_ok.mp hFirst
        obtain ⟨hLimits, frames, hFrames, rfl⟩ := (ih after).mp hRest
        exact ⟨⟨hLimit, hLimits⟩, _, ⟨frame, hFrame, frames, hFrames, rfl⟩, by simp⟩
      · rintro ⟨⟨hLimit, hLimits⟩, _, ⟨frame, hFrame, frames, hFrames, rfl⟩, rfl⟩
        refine ⟨payload, frames.flatten ++ rest, ?_, payloads, rest, ?_, ⟨rfl, rfl⟩, rfl⟩
        · exact readFramedBounded_eq_ok.mpr ⟨hLimit, frame, hFrame, by simp⟩
        · exact (ih _).mpr ⟨hLimits, frames, hFrames, rfl⟩

end KeepAfloat

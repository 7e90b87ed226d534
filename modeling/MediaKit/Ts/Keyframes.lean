import MediaKit.Ts.Demuxer

/-!
# Key frames of a transport stream

`is_keyframe` (`crates/srt/src/server.rs`) looks at one byte behind the first start code. The units
that stand behind the first one do not count, a sequence parameter set is taken for a key frame, and
for H.265 the byte behind a start code of four bytes is the last byte of that start code.
`publishVideo_key_iff` says for which access units the flag is right all the same. -/

namespace MediaKit.Ts

open Lib MediaKit.Core List

/-- A unit that a decoder can start at: an IDR picture for H.264, an IRAP picture for H.265. -/
def isKeyNal (codec : CodecId) (nal : Bytes) : Bool :=
  if codec = .h265 then decide ((16 : UInt8) ≤ (nal.getD 0 0 >>> 1) &&& 0x3F ∧
    (nal.getD 0 0 >>> 1) &&& 0x3F ≤ 21)
  else decide (nal.getD 0 0 &&& 0x1F = 5)

/-- A unit behind its start code, of three or four bytes. -/
def codedNal (u : Bool × Bytes) : Bytes := (if u.1 then [0, 0, 0, 1] else [0, 0, 1]) ++ u.2

def accessUnit (units : List (Bool × Bytes)) : Bytes := units.flatMap codedNal

/-- The first unit, with the length of its start code, tells whether there is a key picture among
the units. -/
def Told (codec : CodecId) (four : Bool) (nal : Bytes) (rest : List (Bool × Bytes)) : Prop :=
  let later := ∃ u ∈ rest, isKeyNal codec u.2 = true
  if codec = .h265 then if isKeyNal codec nal then four = false else ¬ later
  -- a window has five bytes, one more than a start code of three bytes with a unit of one
  else if four = false ∧ nal.length = 1 ∧ rest = [] then isKeyNal codec nal = false
  else if isKeyNal codec nal then True
  else if nal.getD 0 0 &&& 0x1F = 7 then later
  else ¬ later

instance (codec : CodecId) (four : Bool) (nal : Bytes) (rest : List (Bool × Bytes)) :
    Decidable (Told codec four nal rest) := by
  unfold Told
  infer_instance

variable {codec : CodecId}

/-- The test at the front of an access unit. -/
theorem isKeyframe_coded (hco : IsH26x codec) (four : Bool) (b : UInt8) (t : Bytes) :
    isKeyframe (codedNal (four, b :: t)) codec =
      if codec = .h265 then !four && isKeyNal codec [b]
      else (four || !t.isEmpty) && (isKeyNal codec [b] || b &&& 0x1F = 7) := by
  rcases hco with rfl | rfl
  · cases four <;> cases t <;> simp [isKeyframe, codedNal, firstWindow, isKeyNal]
  · cases four
    · simp [isKeyframe, codedNal, firstWindow, isKeyNal]
    · -- the byte that is read is the last one of the start code
      have hcd : ((1 : UInt8) >>> (1 : UInt8)) &&& (0x3F : UInt8) = 0 := by decide
      simp [isKeyframe, codedNal, firstWindow, hcd]

/-- **Key frames of a transport stream.** The frame of an access unit has the flag exactly if there
is a key picture among its units, if and only if the first unit tells. -/
theorem publishVideo_key_iff (hcodec : codec = .h264 ∨ codec = .h265) (four : Bool) (nal : Bytes)
    (rest : List (Bool × Bytes)) (hne : nal ≠ []) (pts dts : Option UInt64) (fallback : UInt32) :
    (∃ frame, (publishVideo (accessUnit ((four, nal) :: rest)) (some codec) pts dts fallback).2 =
      [frame] ∧
      (frame.keyFrame = true ↔ ∃ u ∈ (four, nal) :: rest, isKeyNal codec u.2 = true)) ↔
      Told codec four nal rest := by
  obtain ⟨b, n, rfl⟩ := exists_cons_of_ne_nil hne
  have hun : accessUnit ((four, b :: n) :: rest) =
      codedNal (four, b :: (n ++ accessUnit rest)) := by
    simp [accessUnit, codedNal]
  have hlen : ¬ (codedNal (four, b :: (n ++ accessUnit rest))).length < 4 := by
    cases four <;> simp [codedNal]
  have he : (n ++ accessUnit rest).isEmpty = true ↔ n = [] ∧ rest = [] := by
    cases rest with
    | nil => simp [accessUnit]
    | cons u rest => cases hu : u.1 <;> simp [accessUnit, codedNal, hu]
  have hf : (∃ frame, (publishVideo (accessUnit ((four, b :: n) :: rest))
    (some codec) pts dts fallback).2 = [frame] ∧
      (frame.keyFrame = true ↔ ∃ u ∈ (four, b :: n) :: rest, isKeyNal codec u.2 = true)) ↔
      (isKeyframe (codedNal (four, b :: (n ++ accessUnit rest))) codec = true ↔
        isKeyNal codec [b] = true ∨ ∃ u ∈ rest, isKeyNal codec u.2 = true) := by
    rw [publishVideo, hun, if_neg hlen]
    simp only [cons.injEq, and_true, exists_eq_left', mem_cons, exists_eq_or_imp]
    rfl
  rw [hf, isKeyframe_coded hcodec, Told, show isKeyNal codec (b :: n) = isKeyNal codec [b] from rfl]
  rcases hcodec with rfl | rfl
  · grind
  · grind

/-- A delimiter and a picture that is no key. -/
theorem delimited_picture_told : ∃ frame,
    (publishVideo (accessUnit [(true, [0x09, 0xF0]), (false, [0x41, 0x9A])]) (some .h264)
      (some 0) none 0).2 = [frame] ∧ frame.keyFrame = false := by
  obtain ⟨frame, hf, hk⟩ := (publishVideo_key_iff (.inl rfl) true [0x09, 0xF0]
    [(false, [0x41, 0x9A])] (cons_ne_nil _ _) (some 0) none 0).mpr (by decide +kernel)
  exact ⟨frame, hf, Bool.eq_false_iff.mpr fun h => absurd (hk.mp h) (by decide +kernel)⟩

/-- **Key pictures that are not recognised**: an IDR picture behind a delimiter; parameter sets
alone, which are taken for one; and an IRAP picture of H.265 behind a start code of four bytes. -/
theorem key_pictures_missed :
    (publishVideo (accessUnit [(true, [0x09, 0xF0]), (true, [0x65, 0x88])])
      (some .h264) none none 0).2.map (·.keyFrame) = [false] ∧
    (publishVideo (accessUnit [(true, [0x67, 0x42]), (true, [0x41, 0x9A])])
      (some .h264) none none 0).2.map (·.keyFrame) = [true] ∧
    (publishVideo (accessUnit [(true, [0x26, 0x01, 0xAF])]) (some .h265) none none 0).2.map
      (·.keyFrame) = [false] := by
  decide +kernel

end MediaKit.Ts

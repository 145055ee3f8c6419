import Rebocap.Lib.LittleEndian

/-!
# Length-prefixed framing

A frame is a four-byte little-endian length followed by that many bytes.
`splitFrames` reads a stream of frames: it returns the payloads of the complete frames
and the bytes it stops at, which are either an incomplete frame or a header over the limit.

* `splitFrames_join` — the frames and the rest are the stream
* `splitFrames_append` — reading does not depend on how the stream is cut into pieces
* `splitFrames_flatMap` — what was framed is read back
-/

namespace Lib

/-! ## One frame -/

def encodeFrame (p : Bytes) : Bytes := leBytes 4 p.length ++ p

@[simp] theorem length_encodeFrame (p : Bytes) : (encodeFrame p).length = 4 + p.length := by
  simp [encodeFrame]

theorem encodeFrame_ne_nil (p : Bytes) : encodeFrame p ≠ [] := by
  intro h
  have := congrArg List.length h
  rw [length_encodeFrame, List.length_nil] at this
  omega

/-- The length that a header announces. -/
def frameSize (s : Bytes) : Nat := leValue (s.take 4)

theorem frameSize_append {s : Bytes} (t : Bytes) (h : 4 ≤ s.length) :
    frameSize (s ++ t) = frameSize s := by
  simp [frameSize, List.take_append_of_le_length h]

theorem frameSize_encodeFrame {p : Bytes} (t : Bytes) (h : p.length < 2 ^ 32) :
    frameSize (encodeFrame p ++ t) = p.length := by
  rw [frameSize_append t (by simp), frameSize, encodeFrame,
    List.take_append_of_le_length (by simp), List.take_of_length_le (by simp)]
  exact leValue_leBytes_of_lt (by simpa using h)

/-- A header and the bytes it announces are a frame. -/
theorem encodeFrame_of_header {head p : Bytes} (h4 : head.length = 4)
    (hp : p.length = leValue head) : encodeFrame p = head ++ p := by
  have hhead := leBytes_leValue head
  rw [encodeFrame, hp, ← h4, hhead]

/-- `s` starts with a complete frame of at most `limit` bytes. -/
def HasFrame (limit : Nat) (s : Bytes) : Prop :=
  4 ≤ s.length ∧ frameSize s ≤ limit ∧ 4 + frameSize s ≤ s.length

instance (limit : Nat) (s : Bytes) : Decidable (HasFrame limit s) :=
  inferInstanceAs (Decidable (_ ∧ _ ∧ _))

theorem HasFrame.append {limit : Nat} {s : Bytes} (h : HasFrame limit s) (t : Bytes) :
    HasFrame limit (s ++ t) := by
  obtain ⟨h4, hl, hn⟩ := h
  refine ⟨?_, ?_, ?_⟩
  · rw [List.length_append]; omega
  · rw [frameSize_append t h4]; exact hl
  · rw [frameSize_append t h4, List.length_append]; omega

/-- The payload of the frame at the start of `s`. -/
def frameHead (s : Bytes) : Bytes := (s.drop 4).take (frameSize s)

/-- The bytes behind the frame at the start of `s`. -/
def frameTail (s : Bytes) : Bytes := s.drop (4 + frameSize s)

theorem length_frameHead {limit : Nat} {s : Bytes} (h : HasFrame limit s) :
    (frameHead s).length = frameSize s := by
  obtain ⟨-, -, hn⟩ := h
  rw [frameHead, List.length_take, List.length_drop]
  omega

theorem encodeFrame_head_tail {limit : Nat} {s : Bytes} (h : HasFrame limit s) :
    encodeFrame (frameHead s) ++ frameTail s = s := by
  have hlen := length_frameHead h
  have h4 : (s.take 4).length = 4 := by rw [List.length_take]; have := h.1; omega
  have hhead : leBytes 4 (frameSize s) = s.take 4 := by
    have := leBytes_leValue (s.take 4)
    rwa [h4] at this
  rw [encodeFrame, hlen, hhead, frameHead, frameTail, ← List.drop_drop, List.append_assoc,
    List.take_append_drop, List.take_append_drop]

theorem frameHead_append {limit : Nat} {s : Bytes} (h : HasFrame limit s) (t : Bytes) :
    frameHead (s ++ t) = frameHead s := by
  obtain ⟨h4, -, hn⟩ := h
  rw [frameHead, frameHead, frameSize_append t h4, List.drop_append_of_le_length h4,
    List.take_append_of_le_length (by rw [List.length_drop]; omega)]

theorem frameTail_append {limit : Nat} {s : Bytes} (h : HasFrame limit s) (t : Bytes) :
    frameTail (s ++ t) = frameTail s ++ t := by
  obtain ⟨h4, -, hn⟩ := h
  rw [frameTail, frameTail, frameSize_append t h4, List.drop_append_of_le_length hn]

theorem hasFrame_encodeFrame {limit : Nat} {p : Bytes} (t : Bytes) (hp : p.length ≤ limit)
    (h32 : p.length < 2 ^ 32) : HasFrame limit (encodeFrame p ++ t) := by
  rw [HasFrame, frameSize_encodeFrame t h32, List.length_append, length_encodeFrame]
  omega

theorem frameHead_encodeFrame {p : Bytes} (t : Bytes) (h32 : p.length < 2 ^ 32) :
    frameHead (encodeFrame p ++ t) = p := by
  rw [frameHead, frameSize_encodeFrame t h32, encodeFrame, List.append_assoc,
    List.drop_left' (by simp), List.take_left' rfl]

theorem frameTail_encodeFrame {p : Bytes} (t : Bytes) (h32 : p.length < 2 ^ 32) :
    frameTail (encodeFrame p ++ t) = t := by
  rw [frameTail, frameSize_encodeFrame t h32, List.drop_left' (by simp)]

/-- A strict prefix of a frame holds no frame. -/
theorem not_hasFrame_of_part {limit : Nat} {part p : Bytes} (hpre : part <+: encodeFrame p)
    (hne : part ≠ encodeFrame p) (h32 : p.length < 2 ^ 32) : ¬HasFrame limit part := by
  rintro ⟨h4, -, hn⟩
  obtain ⟨t, ht⟩ := hpre
  have hsize : frameSize part = p.length := by
    rw [← frameSize_append t h4, ht]
    simpa using frameSize_encodeFrame [] h32
  have hlen := congrArg List.length ht
  rw [List.length_append, length_encodeFrame] at hlen
  have ht0 : t = [] := List.eq_nil_of_length_eq_zero (by omega)
  exact hne (by rw [← ht, ht0, List.append_nil])

/-! ## A stream of frames -/

theorem length_frameTail_lt {limit : Nat} {s : Bytes} (h : HasFrame limit s) :
    (frameTail s).length < s.length := by
  obtain ⟨h4, -, -⟩ := h
  rw [frameTail, List.length_drop]
  omega

/-- The complete frames at the start of a stream and what is left behind them. -/
def splitFrames (limit : Nat) (s : Bytes) : List Bytes × Bytes :=
  if _h : HasFrame limit s then
    (frameHead s :: (splitFrames limit (frameTail s)).1, (splitFrames limit (frameTail s)).2)
  else ([], s)
termination_by s.length
decreasing_by all_goals exact length_frameTail_lt _h

theorem splitFrames_of_hasFrame {limit : Nat} {s : Bytes} (h : HasFrame limit s) :
    splitFrames limit s
      = (frameHead s :: (splitFrames limit (frameTail s)).1,
          (splitFrames limit (frameTail s)).2) := by
  rw [splitFrames, dif_pos h]

theorem splitFrames_of_not {limit : Nat} {s : Bytes} (h : ¬HasFrame limit s) :
    splitFrames limit s = ([], s) := by
  rw [splitFrames, dif_neg h]

/-- What is left has no complete frame at its start. -/
theorem not_hasFrame_rest (limit : Nat) (s : Bytes) : ¬HasFrame limit (splitFrames limit s).2 := by
  fun_induction splitFrames limit s with
  | case1 s _ ih => exact ih
  | case2 s h => exact h

/-- **The frames and the rest are the stream.** -/
theorem splitFrames_join (limit : Nat) (s : Bytes) :
    (splitFrames limit s).1.flatMap encodeFrame ++ (splitFrames limit s).2 = s := by
  fun_induction splitFrames limit s with
  | case1 s h ih =>
    rw [List.flatMap_cons, List.append_assoc, ih, encodeFrame_head_tail h]
  | case2 s h => simp

/-- **Reading a longer stream goes on from what was left.** -/
theorem splitFrames_append (limit : Nat) (s t : Bytes) :
    splitFrames limit (s ++ t)
      = ((splitFrames limit s).1 ++ (splitFrames limit ((splitFrames limit s).2 ++ t)).1,
          (splitFrames limit ((splitFrames limit s).2 ++ t)).2) := by
  fun_induction splitFrames limit s with
  | case1 s h ih =>
    rw [splitFrames_of_hasFrame (h.append t), frameHead_append h t, frameTail_append h t, ih]
    simp
  | case2 s h => simp

/-- Frames that were read stay read when more bytes arrive. -/
theorem splitFrames_prefix {limit : Nat} {s t : Bytes} (h : s <+: t) :
    (splitFrames limit s).1 <+: (splitFrames limit t).1 := by
  obtain ⟨u, rfl⟩ := h
  rw [splitFrames_append]
  exact List.prefix_append _ _

theorem splitFrames_encodeFrame {limit : Nat} {p : Bytes} (t : Bytes) (hp : p.length ≤ limit)
    (h32 : p.length < 2 ^ 32) :
    splitFrames limit (encodeFrame p ++ t)
      = (p :: (splitFrames limit t).1, (splitFrames limit t).2) := by
  rw [splitFrames_of_hasFrame (hasFrame_encodeFrame t hp h32), frameHead_encodeFrame t h32,
    frameTail_encodeFrame t h32]

/-- **What was framed is read back, and reading goes on behind it.** -/
theorem splitFrames_flatMap {limit : Nat} : ∀ {ps : List Bytes} (t : Bytes),
    (∀ p ∈ ps, p.length ≤ limit ∧ p.length < 2 ^ 32) →
    splitFrames limit (ps.flatMap encodeFrame ++ t)
      = (ps ++ (splitFrames limit t).1, (splitFrames limit t).2) := by
  intro ps t
  induction ps with
  | nil => simp
  | cons p ps ih =>
    intro h
    obtain ⟨hp, h32⟩ := h p List.mem_cons_self
    rw [List.flatMap_cons, List.append_assoc, splitFrames_encodeFrame _ hp h32,
      ih fun q hq => h q (List.mem_cons_of_mem _ hq)]
    simp

/-- A reader of a part of what was framed finds the first of it, and behind that a part of a
frame. -/
theorem splitFrames_of_prefix {limit : Nat} : ∀ {ps : List Bytes} {s : Bytes},
    (∀ p ∈ ps, p.length ≤ limit ∧ p.length < 2 ^ 32) → s <+: ps.flatMap encodeFrame →
    ∃ qs part, splitFrames limit s = (qs, part) ∧ qs <+: ps ∧
      (part = [] ∨ ∃ p ∈ ps, part <+: encodeFrame p ∧ part ≠ encodeFrame p) := by
  intro ps
  induction ps with
  | nil =>
    intro s _ h
    have hs : s = [] := by simpa using h
    have hnone : ¬HasFrame limit [] := fun h => absurd h.1 (by decide)
    exact ⟨[], [], by rw [hs, splitFrames_of_not hnone], List.nil_prefix, Or.inl rfl⟩
  | cons p ps ih =>
    intro s hps h
    obtain ⟨hp, h32⟩ := hps p List.mem_cons_self
    rw [List.flatMap_cons] at h
    rcases List.prefix_or_prefix_of_prefix h (List.prefix_append _ _) with hshort | ⟨t, rfl⟩
    · by_cases hwhole : s = encodeFrame p
      · have hread := splitFrames_encodeFrame [] hp h32
        have hnone : ¬HasFrame limit [] := fun h => absurd h.1 (by decide)
        rw [List.append_nil, splitFrames_of_not hnone] at hread
        exact ⟨[p], [], by rw [hwhole, hread], ⟨ps, rfl⟩, Or.inl rfl⟩
      · have hnone : ¬HasFrame limit s := not_hasFrame_of_part hshort hwhole h32
        exact ⟨[], s, splitFrames_of_not hnone, List.nil_prefix,
          Or.inr ⟨p, List.mem_cons_self, hshort, hwhole⟩⟩
    · obtain ⟨qs, part, hread, hqs, hpart⟩ :=
        ih (fun q hq => hps q (List.mem_cons_of_mem p hq)) ((List.prefix_append_right_inj _).mp h)
      refine ⟨p :: qs, part, ?_, (List.prefix_cons_inj p).mpr hqs, ?_⟩
      · rw [splitFrames_encodeFrame t hp h32, hread]
      · exact hpart.imp_right fun ⟨q, hq, hpre, hne⟩ => ⟨q, List.mem_cons_of_mem p hq, hpre, hne⟩

end Lib

import Rebocap.Net.Reading

/-!
# The indices that `read_loop` applies to `buf`

A pass of the loop over the frames takes the addresses of the header, `&buf[off]`, and of the
payload, `&buf[off + 4]`. The guards compare lengths. An empty frame that ends where `buf` ends
passes them, and then `off + 4` is `buf.size()`.

* `inBounds_iff` — this is the only way out of `buf`
-/

namespace Rebocap.Net.Client

open Lib Proto

/-! ## The indices -/

/-- The indices of a pass of the loop, by the branches of `scan`. -/
def scanIndices (c : Client) : List Nat :=
  if c.buf.length - c.off < 4 then []
  else
    let n := leValue ((c.buf.drop c.off).take 4)
    if n > maxFrame then [c.off]
    else if c.buf.length - c.off < 4 + n then [c.off]
    else [c.off, c.off + 4]

/-- The pass that comes next stays inside `buf`. -/
def InBounds (c : Client) : Prop :=
  c.thread = .scanning → c.off ≤ c.buf.length ∧ ∀ i ∈ c.scanIndices, i < c.buf.length

/-- A stream ends directly behind an empty frame. -/
def EndsEmpty (s : Bytes) : Prop := ∃ ps, splitFrames maxFrame s = (ps ++ [[]], [])

/-- A chunk does not end directly behind an empty frame. -/
def NoEmptyEnd : Event → Client → Prop
  | .recv chunk, c =>
    c.thread = .polling → chunk ≠ [] → chunk.length ≤ 8192 →
      ¬EndsEmpty (c.stream c.generation ++ chunk)
  | _, _ => True

/-! ## An empty frame at the end -/

theorem splitFrames_empty_iff {s : Bytes} :
    splitFrames maxFrame s = ([[]], []) ↔ HasFrame maxFrame s ∧ frameSize s = 0 ∧ s.length = 4 := by
  constructor
  · intro h
    have hf : HasFrame maxFrame s := by
      by_contra hf
      rw [splitFrames_of_not hf] at h
      cases h
    have hjoin := splitFrames_join maxFrame s
    have hhead : frameHead s = [] := by
      rw [splitFrames_of_hasFrame hf] at h
      exact (List.cons.inj (congrArg Prod.fst h)).1
    have hsize := length_frameHead hf
    rw [hhead] at hsize
    rw [h] at hjoin
    refine ⟨hf, hsize.symm, ?_⟩
    rw [← hjoin]
    simp
  · rintro ⟨hf, hsize, hlen⟩
    have hhead : frameHead s = [] := by rw [frameHead, hsize, List.take_zero]
    have htail : frameTail s = [] := by
      rw [frameTail, hsize]
      exact List.drop_eq_nil_of_le (by omega)
    rw [splitFrames_of_hasFrame hf, hhead, htail, splitFrames_nil]

/-- What the indices of a pass are, apart from their bounds. -/
theorem scanIndices_lt_iff {c : Client} (hoff : c.off ≤ c.buf.length) :
    (∀ i ∈ c.scanIndices, i < c.buf.length) ↔ splitFrames maxFrame c.unread ≠ ([[]], []) := by
  have hlen : c.unread.length = c.buf.length - c.off := List.length_drop
  have hsize : leValue ((c.buf.drop c.off).take 4) = frameSize c.unread := rfl
  rw [ne_eq, splitFrames_empty_iff, HasFrame, hlen, scanIndices]
  dsimp only
  rw [hsize]
  split
  next h4 => simp; omega
  next h4 =>
    split
    next => simp; omega
    next =>
      split
      next => simp; omega
      next => simp; omega

/-! ## What holds in the loop over the frames -/

/-- In the loop `off` is inside `buf`, the frames that are left are the last ones of the stream,
and the stream does not end behind an empty one. -/
structure Indexed (c : Client) : Prop where
  off_le : c.thread = .scanning → c.off ≤ c.buf.length
  frames_eq : c.thread = .scanning → ∃ ps, splitFrames maxFrame (c.stream c.generation)
    = (ps ++ (splitFrames maxFrame c.unread).1, (splitFrames maxFrame c.unread).2)
  not_endsEmpty : c.thread = .scanning → ¬EndsEmpty (c.stream c.generation)

variable {c : Client}

theorem indexed_of_not_scanning (h : c.thread ≠ .scanning) : Indexed c :=
  ⟨fun ht => absurd ht h, fun ht => absurd ht h, fun ht => absurd ht h⟩

theorem Indexed.inBounds (h : Indexed c) : InBounds c := by
  intro ht
  refine ⟨h.off_le ht, (scanIndices_lt_iff (h.off_le ht)).mpr fun hunread => ?_⟩
  obtain ⟨ps, hps⟩ := h.frames_eq ht
  rw [hunread] at hps
  exact h.not_endsEmpty ht ⟨ps, hps⟩

/-- A chunk joins the rest of what was received before. -/
theorem splitFrames_recv {chunk : Bytes} (hc : c.Consistent) (ht : c.thread = .polling) :
    splitFrames maxFrame (c.stream c.generation ++ chunk)
      = ((splitFrames maxFrame (c.stream c.generation)).1 ++
          (splitFrames maxFrame (c.buf ++ chunk)).1,
          (splitFrames maxFrame (c.buf ++ chunk)).2) := by
  obtain ⟨hbuf, -⟩ := hc.buf_of_polling ht
  rw [splitFrames_append, ← hbuf]

theorem scan_indexed (h : Indexed c) (ht : c.thread = .scanning) : Indexed c.scan := by
  rcases scan_cases c with ⟨hf, hscan⟩ | ⟨-, -, hscan⟩ | ⟨-, -, hscan⟩ <;> rw [hscan]
  · have hunread := unread_consume c (c.queue ++ received c.generation (frameHead c.unread))
    have hlen : c.unread.length = c.buf.length - c.off := List.length_drop
    have hoff := h.off_le ht
    have hn := hf.2.2
    exact {
      off_le := fun _ => by
        show c.off + (4 + frameSize c.unread) ≤ c.buf.length
        omega
      frames_eq := fun _ => by
        obtain ⟨ps, hps⟩ := h.frames_eq ht
        rw [splitFrames_of_hasFrame hf] at hps
        refine ⟨ps ++ [frameHead c.unread], ?_⟩
        rw [hunread, List.append_assoc, List.singleton_append]
        exact hps
      not_endsEmpty := fun _ => h.not_endsEmpty ht }
  · exact indexed_of_not_scanning nofun
  · exact indexed_of_not_scanning nofun

theorem step_indexed (e : Event) (hc : c.Consistent) (hchunk : NoEmptyEnd e c) (h : Indexed c) :
    Indexed (step e c) := by
  cases e with
  | recv chunk =>
    simp only [step]
    split
    next hrecv =>
      obtain ⟨ht, hne, hlen⟩ := hrecv
      exact {
        off_le := fun _ => Nat.zero_le _
        frames_eq := fun _ => by
          simp only [update_same, unread, List.drop_zero]
          exact ⟨_, splitFrames_recv hc ht⟩
        not_endsEmpty := fun _ => by
          simp only [update_same]
          exact hchunk ht hne hlen }
    next => exact h
  | scan =>
    simp only [step]
    split
    next ht => exact scan_indexed h ht
    next => exact h
  | connect | publish | hangup | close =>
    simp only [step]
    split
    next => exact indexed_of_not_scanning (by simp)
    next => exact h

/-! ## The last frame of a chunk -/

/-- The loop comes to an empty frame at the end. -/
theorem exists_scans (ps : List Bytes) : ∀ {c : Client}, c.thread = .scanning →
    splitFrames maxFrame c.unread = (ps ++ [[]], []) →
    ∃ k, (run step (List.replicate k .scan) c).thread = .scanning ∧
      splitFrames maxFrame (run step (List.replicate k .scan) c).unread = ([[]], []) := by
  induction ps with
  | nil => exact fun ht h => ⟨0, ht, h⟩
  | cons p rest ih =>
    intro c ht h
    have hf : HasFrame maxFrame c.unread := by
      by_contra hf
      rw [splitFrames_of_not hf] at h
      cases h
    have hstep : step .scan c = c.scan := if_pos ht
    have hunread := unread_consume c (c.queue ++ received c.generation (frameHead c.unread))
    have htail : splitFrames maxFrame (frameTail c.unread) = (rest ++ [[]], []) := by
      rw [splitFrames_of_hasFrame hf, Prod.mk.injEq] at h
      exact Prod.ext (List.cons.inj h.1).2 h.2
    obtain ⟨k, hk⟩ := ih (c := c.scan) (by rw [scan_of_hasFrame hf]; exact ht)
      (by rw [scan_of_hasFrame hf, hunread]; exact htail)
    exact ⟨k + 1, by rw [List.replicate_succ, run_cons, hstep]; exact hk⟩

/-- After a chunk that ends behind an empty frame, the loop comes to that frame. -/
theorem exists_scans_of_endsEmpty {chunk : Bytes} (hc : c.Consistent) (ht : c.thread = .polling)
    (hne : chunk ≠ []) (hlen : chunk.length ≤ 8192)
    (h : EndsEmpty (c.stream c.generation ++ chunk)) :
    ∃ k, ¬InBounds (run step (.recv chunk :: List.replicate k .scan) c) := by
  obtain ⟨ps, hps⟩ := h
  rw [splitFrames_recv hc ht, Prod.mk.injEq] at hps
  obtain ⟨hframes, hrest⟩ := hps
  have hjoin := splitFrames_join maxFrame (c.buf ++ chunk)
  -- the chunk completes a frame, as nothing is left of it
  have hlast : ∃ qs, (splitFrames maxFrame (c.buf ++ chunk)).1 = qs ++ [[]] := by
    rcases List.eq_nil_or_concat (splitFrames maxFrame (c.buf ++ chunk)).1 with hnil | ⟨qs, q, hqs⟩
    · rw [hnil, hrest] at hjoin
      simp [hne] at hjoin
    · rw [hqs, List.concat_eq_append, ← List.append_assoc] at hframes
      have hq := (List.append_inj' hframes rfl).2
      rw [List.concat_eq_append, hq] at hqs
      exact ⟨qs, hqs⟩
  obtain ⟨qs, hqs⟩ := hlast
  have hstep : step (.recv chunk) c = { c with
      buf := c.buf ++ chunk
      off := 0
      stream := update c.stream c.generation (c.stream c.generation ++ chunk)
      thread := .scanning } := if_pos ⟨ht, hne, hlen⟩
  obtain ⟨k, hthread, hunread⟩ := exists_scans qs (c := step (.recv chunk) c)
    (by rw [hstep]) (by rw [hstep]; exact Prod.ext hqs hrest)
  refine ⟨k, fun hin => ?_⟩
  rw [run_cons] at hin
  obtain ⟨hoff, hindices⟩ := hin hthread
  exact (scanIndices_lt_iff hoff).mp hindices hunread

/-! ## Runs -/

theorem run_indexed {es : List Event} (h : Meets NoEmptyEnd step es {}) :
    Indexed (run step es {}) := by
  have hstep : ∀ e (c : Client), NoEmptyEnd e c → c.Consistent ∧ Indexed c →
      (step e c).Consistent ∧ Indexed (step e c) := by
    intro e c hchunk hc
    exact ⟨step_consistent e hc.1, step_indexed e hc.1 hchunk hc.2⟩
  exact (run_invariant_of_meets hstep es h
    ⟨consistent_init, indexed_of_not_scanning nofun⟩).2

theorem meets_scans (k : Nat) (c : Client) :
    Meets NoEmptyEnd step (List.replicate k .scan) c := by
  induction k generalizing c with
  | zero => trivial
  | succ k ih => exact ⟨trivial, ih _⟩

/-- **The indices stay inside `buf` exactly if no chunk ends directly behind an empty frame.**
The loop over the frames may go on from any state of the run. -/
theorem inBounds_iff (es : List Event) :
    (∀ n k, InBounds (run step (es.take n ++ List.replicate k .scan) {})) ↔
      Meets NoEmptyEnd step es {} := by
  constructor
  · intro h
    refine Meets.of_forall_split fun before e after hes => ?_
    cases e with
    | recv chunk =>
      intro ht hne hlen hends
      have hc : (run step before {}).Consistent :=
        run_invariant (fun e _ => step_consistent e) before consistent_init
      obtain ⟨k, hk⟩ := exists_scans_of_endsEmpty hc ht hne hlen hends
      have htake : es.take (before.length + 1) = before ++ [.recv chunk] := by
        rw [hes, List.take_append, List.take_of_length_le (Nat.le_succ _)]
        simp
      have hin := h (before.length + 1) k
      rw [htake, List.append_assoc, run_append] at hin
      exact hk hin
    | connect | publish | scan | hangup | close => trivial
  · intro h n k
    rw [← List.take_append_drop n es, Meets.append_iff] at h
    exact (run_indexed (Meets.append_iff.mpr ⟨h.1, meets_scans k _⟩)).inBounds

/-- A chunk that is one empty frame: the payload starts at `buf[4]` of four bytes. -/
theorem not_inBounds_empty_frame :
    ¬InBounds (run step [.connect, .publish, .recv [0, 0, 0, 0]] {}) := by
  intro h
  obtain ⟨-, hindices⟩ := h rfl
  exact absurd (hindices 4 (by decide)) (by decide)

end Rebocap.Net.Client

import Rebocap.Proto.Grammar

/-!
# Two payloads in one

`decode` on a byte string that goes on behind an accepted one.

* `decode_append` — the second half decides: its last member replaces the message, without a
  member it changes nothing, and if it does not parse the whole does not
-/

namespace Rebocap.Proto

open Lib Lib.Wire

/-! ## Parsing to the end -/

/-- The loop over the top level goes to the end of `data`. -/
def Parses (data : Bytes) : Prop :=
  (decodeTop { data := data, p := 0, fin := data.length } {}).1.ok = true

theorem parses_iff {data : Bytes} : Parses data ↔ ∃ ts : List TopItem, data = encodeTop ts := by
  constructor
  · exact fun h => decodeTop_ok (Reader.sees_data data) h
  · rintro ⟨ts, rfl⟩
    exact (decodeTop_items ts {} (Reader.sees_data _)).1

/-- One of the fields at the top level is a member of the `oneof`. -/
def HasMember (data : Bytes) : Prop :=
  ∃ ts : List TopItem, data = encodeTop ts ∧ ∃ t ∈ ts, t.isMember = true

/-- All fields at the top level are skipped. -/
def OnlySkipped (data : Bytes) : Prop :=
  ∃ ts : List TopItem, data = encodeTop ts ∧ ∀ t ∈ ts, t.isMember = false

/-- What parses has a member or is skipped as a whole. -/
theorem Parses.hasMember_or_onlySkipped {data : Bytes} (h : Parses data) :
    HasMember data ∨ OnlySkipped data := by
  obtain ⟨ts, rfl⟩ := parses_iff.mp h
  by_cases hmem : ∃ t ∈ ts, t.isMember = true
  · exact .inl ⟨ts, rfl, hmem⟩
  · refine .inr ⟨ts, rfl, fun t ht => ?_⟩
    by_contra hc
    exact hmem ⟨t, ht, by simpa using hc⟩

theorem decode_eq_true_iff_hasMember {data : Bytes} :
    (decode data {}).1 = true ↔ HasMember data := by
  constructor
  · intro h
    obtain ⟨ts, hts, hmem, -⟩ := decode_eq_true_iff.mp (Prod.ext h rfl)
    exact ⟨ts, hts, hmem⟩
  · rintro ⟨ts, hts, hmem⟩
    rw [decode_eq_true_iff.mpr ⟨ts, hts, hmem, rfl⟩]

/-! ## Behind an accepted payload -/

/-- The reader resumes at the boundary: what follows items is read as if it stood alone. -/
theorem exists_items_of_append : ∀ {ts vs : List TopItem} {b : Bytes},
    encodeTop ts ++ b = encodeTop vs → ∃ us : List TopItem, b = encodeTop us := by
  intro ts
  induction ts with
  | nil => exact fun {vs} _ h => ⟨vs, h⟩
  | cons t rest ih =>
    intro vs b h
    cases vs with
    | nil =>
      have := t.field.encode_ne_nil
      simp [TopItem.encode, this] at h
    | cons v vs =>
      rw [encodeTop_cons, encodeTop_cons, List.append_assoc] at h
      obtain ⟨-, htail⟩ := Field.encode_unique h
      exact ih htail

/-- Once a member was read, the message from before does not matter. -/
theorem foldl_put_of_member : ∀ {ts : List TopItem} (m m' : Msg),
    (∃ t ∈ ts, t.isMember = true) → ts.foldl TopItem.put m = ts.foldl TopItem.put m' := by
  intro ts
  induction ts with
  | nil =>
    rintro m m' ⟨t, ht, -⟩
    cases ht
  | cons t rest ih =>
    rintro m m' ⟨u, hu, hmem⟩
    cases t with
    | member => rfl
    | skipped =>
      rcases List.mem_cons.mp hu with rfl | hu
      · cases hmem
      · exact ih m m' ⟨u, hu, hmem⟩

theorem foldl_put_of_skipped : ∀ {ts : List TopItem} (m : Msg),
    (∀ t ∈ ts, t.isMember = false) → ts.foldl TopItem.put m = m := by
  intro ts
  induction ts with
  | nil => exact fun _ _ => rfl
  | cons t rest ih =>
    intro m h
    cases t with
    | member => cases h _ List.mem_cons_self
    | skipped => exact ih m fun u hu => h u (List.mem_cons_of_mem _ hu)

/-- **A payload behind an accepted one decides alone.** -/
theorem decode_append (a b : Bytes) (ha : (decode a {}).1 = true) :
    (HasMember b → (decode b {}).1 = true ∧ decode (a ++ b) {} = (true, (decode b {}).2)) ∧
      (OnlySkipped b → decode (a ++ b) {} = (true, (decode a {}).2)) ∧
      (¬Parses b → (decode (a ++ b) {}).1 = false) := by
  obtain ⟨ts, rfl, hmem, hm⟩ := decode_eq_true_iff.mp (Prod.ext ha rfl)
  refine ⟨?_, ?_, ?_⟩
  · rintro ⟨us, rfl, hmem'⟩
    have hb : decode (encodeTop us) {} = (true, us.foldl TopItem.put {}) :=
      decode_eq_true_iff.mpr ⟨us, rfl, hmem', rfl⟩
    refine ⟨by rw [hb], ?_⟩
    rw [hb, ← encodeTop_append]
    refine decode_eq_true_iff.mpr ⟨ts ++ us, rfl, ?_, ?_⟩
    · obtain ⟨t, ht, htm⟩ := hmem'
      exact ⟨t, List.mem_append_right _ ht, htm⟩
    · rw [List.foldl_append]
      exact foldl_put_of_member _ _ hmem'
  · rintro ⟨us, rfl, hskip⟩
    rw [← encodeTop_append]
    refine decode_eq_true_iff.mpr ⟨ts ++ us, rfl, ?_, ?_⟩
    · obtain ⟨t, ht, htm⟩ := hmem
      exact ⟨t, List.mem_append_left _ ht, htm⟩
    · rw [List.foldl_append, foldl_put_of_skipped _ hskip]
      exact hm
  · intro hb
    by_contra hc
    rw [Bool.not_eq_false] at hc
    obtain ⟨vs, hvs, -, -⟩ := decode_eq_true_iff.mp (Prod.ext hc rfl)
    exact hb (parses_iff.mpr (exists_items_of_append hvs))

/-- A `tracker_status` behind a `position`, and an unfinished tag behind it. -/
theorem decode_append_status :
    decode ([0x0a, 2, 0x08, 7] ++ [0x1a, 2, 0x10, 1]) {}
        = (true, { kind := .trackerStatus, status := 1 }) ∧
      (decode ([0x0a, 2, 0x08, 7] ++ [0x1a]) {}).1 = false := by
  have ha : (decode [0x0a, 2, 0x08, 7] {}).1 = true := by decide +kernel
  have hb : decode [0x1a, 2, 0x10, 1] {} = (true, { kind := .trackerStatus, status := 1 }) := by
    decide +kernel
  have hmember := decode_eq_true_iff_hasMember.mp (congrArg Prod.fst hb)
  have hopen : ¬Parses [0x1a] := by
    unfold Parses
    decide +kernel
  refine ⟨?_, (decode_append [0x0a, 2, 0x08, 7] [0x1a] ha).2.2 hopen⟩
  rw [((decode_append [0x0a, 2, 0x08, 7] [0x1a, 2, 0x10, 1] ha).1 hmember).2, hb]

end Rebocap.Proto

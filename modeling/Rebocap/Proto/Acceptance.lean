import Rebocap.Proto.Grammar

/-!
# What `decode` accepts

`WellFormedMsg` is the wire format of a `RebocapMsg`: fields at the top level, fields inside
every member of the `oneof`, and list fields of `position` in one of their two forms.

`decode` accepts more than that. The branches for `q` and `pos` do not look at the wire type, so
a field 10 or 11 of another wire type is read as one scalar, and what follows is read from the
middle of the field. `HasStray` is the language of these inputs.

* `wellFormed_iff_not_hasStray` — they are the only ones
-/

namespace Rebocap.Proto

open Lib Lib.Wire

/-! ## Well-formed messages -/

/-- `decode` goes over the field by the extent of its wire type and takes no value from it. -/
def Skipped (field : MsgKind) (g : Field) : Prop :=
  ∀ (r : Reader) (rest : Bytes) (m : Msg), r.Sees (g.encode ++ rest) →
    decodeField field r m = (r.advance g.encode.length, m)

/-- A `q` or `pos` field of a `position` submessage is packed, a single scalar, or skipped. -/
def PositionFieldOk (g : Field) : Prop :=
  (fieldNumber g = 10 → ListPayload 8 1 g.value ∨ Skipped .position g) ∧
    (fieldNumber g = 11 → ListPayload 4 5 g.value ∨ Skipped .position g)

/-- The payload of a member is a sequence of fields. -/
def MemberOk (field : MsgKind) (body : Bytes) : Prop :=
  ∃ gs : List Field, body = encodeAll gs ∧ (field = .position → ∀ g ∈ gs, PositionFieldOk g)

def WellFormedMsg (data : Bytes) : Prop :=
  ∃ fs : List Field, data = encodeAll fs ∧
    ∀ f ∈ fs, ∀ field, member? f = some field → MemberOk field f.value.body

/-- The item is a member with a stray list field. -/
def TopItem.hasStray : TopItem → Bool
  | .skipped .. => false
  | .member _ _ its _ _ => its.any Item.isStray

/-- `data` is a sequence of fields with a `position` member whose payload has, among its fields,
a field 10 that is neither of wire type 2 nor 1 followed by eight bytes, or a field 11 that is
neither of wire type 2 nor 5 followed by four. -/
def HasStray (data : Bytes) : Prop :=
  ∃ ts : List TopItem, data = encodeTop ts ∧ ∃ t ∈ ts, t.hasStray = true

/-! ## Stray fields are not well-formed -/

/-- A list field of a wrong wire type is never skipped. -/
theorem not_skipped_of_stray {field : MsgKind} {g : Field} {n : Nat}
    (hs : strayWidth field (fieldNumber g) g.value.wireType = some n) : ¬Skipped field g := by
  intro hskip
  have hsees : ({ data := g.encode, p := 0, fin := g.encode.length } : Reader).Sees
      (g.tag ++ g.value.encode) := Reader.sees_data g.encode
  have he := hskip { data := g.encode, p := 0, fin := g.encode.length } [] {}
    (by simpa using Reader.sees_data g.encode)
  rw [decodeField_of_tag {} hsees g.isVarint, tagWire_tag] at he
  exact decodePayload_stray_ne {} hs (congrArg Prod.snd he)

/-- The fields of a well-formed `position` submessage are not stray. -/
theorem not_positionFieldOk_of_stray {g : Field} {n : Nat}
    (hs : strayWidth .position (fieldNumber g) g.value.wireType = some n) :
    ¬PositionFieldOk g := by
  intro hok
  have hskip := not_skipped_of_stray hs
  obtain ⟨-, h2, ⟨hf, h1, -⟩ | ⟨hf, h5, -⟩⟩ := strayWidth_eq_some.mp hs
  · rcases hok.1 hf with (⟨hw, -⟩ | hw) | hsk
    · exact h2 hw
    · exact h1 hw
    · exact hskip hsk
  · rcases hok.2 hf with (⟨hw, -⟩ | hw) | hsk
    · exact h2 hw
    · exact h5 hw
    · exact hskip hsk

theorem strayWidth_position {field : MsgKind} {f : Int} {w n : Nat}
    (hs : strayWidth field f w = some n) : field = .position := (strayWidth_eq_some.mp hs).1

/-- The items of a body that is well-formed have no stray field among them. The two readings of
the body agree up to the first one. -/
theorem not_stray_of_memberOk {field : MsgKind} : ∀ {its : List (Item field)} {gs : List Field},
    encodeItems its = encodeAll gs → (field = .position → ∀ g ∈ gs, PositionFieldOk g) →
    its.any Item.isStray = false
  | [], _, _, _ => rfl
  | it :: its, [], h, _ => by
    have := it.encode_ne_nil
    simp [this] at h
  | .ofField g hg :: its, g' :: gs, h, hok => by
    obtain ⟨-, htail⟩ := Field.encode_unique h
    have ih := not_stray_of_memberOk htail
      (fun hp x hx => hok hp x (List.mem_cons_of_mem _ hx))
    simpa [Item.isStray] using ih
  | .stray tag n scalar htag hs hlen :: its, g :: gs, h, hok => by
    exfalso
    have htags : tag ++ (scalar ++ encodeItems its)
        = g.tag ++ (g.value.encode ++ encodeAll gs) := by
      simpa [Item.encode, Field.encode] using h
    obtain ⟨rfl, -⟩ := varint_unique htag g.isVarint htags
    have hp := strayWidth_position hs
    subst hp
    rw [tagWire_tag] at hs
    exact not_positionFieldOk_of_stray hs (hok rfl g List.mem_cons_self)

theorem not_wellFormed_of_hasStray {data : Bytes} (h : HasStray data) : ¬WellFormedMsg data := by
  rintro ⟨fs, hfs, hok⟩
  obtain ⟨ts, rfl, t, ht, hstray⟩ := h
  rw [encodeTop_eq_encodeAll] at hfs
  have hmap : ts.map TopItem.field = fs := encodeAll_injective hfs
  cases t with
  | skipped f hf => cases hstray
  | member f field its hf hbody =>
    have hmem : f ∈ fs := by
      rw [← hmap]
      exact List.mem_map.mpr ⟨_, ht, rfl⟩
    obtain ⟨gs, hgs, hpos⟩ := hok f hmem field hf
    have hnone := not_stray_of_memberOk (hbody.symm.trans hgs) hpos
    rw [TopItem.hasStray, hnone] at hstray
    cases hstray

/-! ## Everything else that is accepted is well-formed -/

/-- The fields behind items that are not stray. -/
theorem exists_fields_of_not_stray {field : MsgKind} : ∀ {its : List (Item field)},
    its.any Item.isStray = false → ∃ gs : List Field, encodeItems its = encodeAll gs ∧
      ∀ g ∈ gs, Readable field (fieldNumber g) g.value := by
  intro its
  induction its with
  | nil => exact fun _ => ⟨[], rfl, by simp⟩
  | cons it its ih =>
    intro h
    cases it with
    | ofField g hg =>
      have hits : its.any Item.isStray = false := by simpa [Item.isStray] using h
      obtain ⟨gs, hgs, hr⟩ := ih hits
      refine ⟨g :: gs, by rw [encodeItems_cons, encodeAll_cons, hgs]; rfl, ?_⟩
      intro x hx
      rcases List.mem_cons.mp hx with rfl | hx
      · exact hg
      · exact hr x hx
    | stray => simp [Item.isStray] at h

theorem positionFieldOk_of_readable {g : Field}
    (h : Readable .position (fieldNumber g) g.value) : PositionFieldOk g :=
  ⟨fun hf => Or.inl ((h rfl).1 hf), fun hf => Or.inl ((h rfl).2 hf)⟩

theorem wellFormed_of_not_hasStray {ts : List TopItem}
    (h : ∀ t ∈ ts, t.hasStray = false) : WellFormedMsg (encodeTop ts) := by
  refine ⟨ts.map TopItem.field, encodeTop_eq_encodeAll ts, ?_⟩
  intro f hf field hk
  obtain ⟨t, ht, rfl⟩ := List.mem_map.mp hf
  cases t with
  | skipped f hskip =>
    rw [TopItem.field, hskip] at hk
    cases hk
  | member f field' its hf' hbody =>
    obtain rfl : field' = field := Option.some.inj (hf'.symm.trans hk)
    obtain ⟨gs, hgs, hr⟩ := exists_fields_of_not_stray (h _ ht)
    refine ⟨gs, hbody.trans hgs, ?_⟩
    rintro rfl g hg
    exact positionFieldOk_of_readable (hr g hg)

/-- An input with a stray field is accepted. -/
theorem decode_of_hasStray {data : Bytes} (h : HasStray data) : (decode data {}).1 = true := by
  obtain ⟨ts, hts, t, ht, hstray⟩ := h
  have hmem : ∃ t ∈ ts, t.isMember = true := by
    refine ⟨t, ht, ?_⟩
    cases t with
    | skipped => cases hstray
    | member => rfl
  rw [decode_eq_true_iff.mpr ⟨ts, hts, hmem, rfl⟩]

/-- **What `decode` accepts is well-formed exactly if it has no stray list field.** -/
theorem wellFormed_iff_not_hasStray (data : Bytes) :
    ((decode data {}).1 = true → WellFormedMsg data) ↔ ¬HasStray data := by
  constructor
  · intro h hstray
    exact not_wellFormed_of_hasStray hstray (h (decode_of_hasStray hstray))
  · intro h hok
    obtain ⟨ts, rfl, -, -⟩ := decode_eq_true_iff.mp (Prod.ext hok rfl)
    refine wellFormed_of_not_hasStray fun t ht => ?_
    by_contra hstray
    exact h ⟨ts, rfl, t, ht, by simpa using hstray⟩

/-- A `position` whose payload is the tag of a varint field 10 and eight bytes that are no varint:
`decode` takes them for a quaternion component. -/
theorem decode_accepts_stray_q :
    (decode [0x0a, 9, 0x50, 255, 255, 255, 255, 255, 255, 255, 255] {}).1 = true ∧
      ¬WellFormedMsg [0x0a, 9, 0x50, 255, 255, 255, 255, 255, 255, 255, 255] := by
  have hstray : HasStray [0x0a, 9, 0x50, 255, 255, 255, 255, 255, 255, 255, 255] := by
    have hk : tagMember (varintValue [0x0a]) = some .position := by decide
    exact ⟨[.member ⟨[0x0a], .bytes [9] [0x50, 255, 255, 255, 255, 255, 255, 255, 255]
      (by decide) (by decide), by decide, by decide⟩ .position
      [.stray [0x50] 8 [255, 255, 255, 255, 255, 255, 255, 255] (by decide) (by decide) rfl]
      hk rfl], rfl, _, List.mem_singleton_self _, rfl⟩
  exact ⟨by decide +kernel, not_wellFormed_of_hasStray hstray⟩

end Rebocap.Proto

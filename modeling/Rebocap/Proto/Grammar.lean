import Rebocap.Proto.Fields

/-!
# The language of `decode`

The byte strings that `decode` accepts, as a grammar, and the message that it reads from them.

A submessage is a list of `Item`s: fields, and the stray list fields of `position`.
The top level is a list of `TopItem`s: members of the `oneof`, and fields that are skipped.

* `decodeField_item` / `decodeField_ok` — one field of a submessage is one item
* `decodeTopField_item` / `decodeTopField_ok` — the same at the top level
* `decode_eq_true_iff` — the whole
-/

namespace Rebocap.Proto

open Lib Lib.Wire

theorem tagWire_eq (t : Nat) : tagWire t = t % 8 := Nat.and_two_pow_sub_one_eq_mod t 3

/-- The field number as `decode` reads it. -/
def fieldNumber (g : Field) : Int := tagField (varintValue g.tag)

theorem tagWire_tag (g : Field) : tagWire (varintValue g.tag) = g.value.wireType := by
  rw [tagWire_eq, g.wireType_eq]

/-! ## Submessages -/

/-- What `decodeField` consumes in one call. -/
inductive Item (field : MsgKind) where
  | ofField (g : Field) (readable : Readable field (fieldNumber g) g.value)
  | stray (tag : Bytes) (n : Nat) (scalar : Bytes) (isVarint : IsVarint tag)
      (width_eq : strayWidth field (tagField (varintValue tag)) (tagWire (varintValue tag))
        = some n)
      (length_eq : scalar.length = n)

namespace Item

variable {field : MsgKind}

def encode : Item field → Bytes
  | .ofField g _ => g.encode
  | .stray tag _ scalar .. => tag ++ scalar

def isStray : Item field → Bool
  | .ofField .. => false
  | .stray .. => true

/-- The effect on the message. A stray scalar joins the list of its field number. -/
def put (m : Msg) : Item field → Msg
  | .ofField g _ => m.put field (fieldNumber g) g.value
  | .stray tag _ scalar .. =>
    if tagField (varintValue tag) = 10 then
      { m with q := m.q ++ [BitVec.ofNat 64 (leValue scalar)] }
    else { m with pos := m.pos ++ [BitVec.ofNat 32 (leValue scalar)] }

theorem encode_ne_nil (it : Item field) : it.encode ≠ [] := by
  cases it with
  | ofField g _ => exact g.encode_ne_nil
  | stray tag n scalar htag _ _ =>
    have := varintUpTo_ne_nil htag
    simp [encode, this]

end Item

def encodeItems {field : MsgKind} (its : List (Item field)) : Bytes := its.flatMap Item.encode

@[simp] theorem encodeItems_nil {field : MsgKind} : encodeItems ([] : List (Item field)) = [] :=
  rfl

@[simp] theorem encodeItems_cons {field : MsgKind} (it : Item field) (its : List (Item field)) :
    encodeItems (it :: its) = it.encode ++ encodeItems its := rfl

theorem decodeField_of_tag {field : MsgKind} {r : Reader} {tag rest : Bytes} (m : Msg)
    (h : r.Sees (tag ++ rest)) (htag : IsVarint tag) :
    decodeField field r m
      = decodePayload field (tagField (varintValue tag)) (tagWire (varintValue tag))
          (r.advance tag.length) m := by
  rw [decodeField, Reader.varint_of_isVarint h htag]

theorem decodePayload_stray_eq {field : MsgKind} {f : Int} {w n : Nat} {r : Reader}
    {a rest : Bytes} (m : Msg) (hs : strayWidth field f w = some n) (h : r.Sees (a ++ rest))
    (ha : a.length = n) :
    (decodePayload field f w r m).2
      = if f = 10 then { m with q := m.q ++ [BitVec.ofNat 64 (leValue a)] }
        else { m with pos := m.pos ++ [BitVec.ofNat 32 (leValue a)] } := by
  obtain ⟨rfl, h2, ⟨rfl, -, rfl⟩ | ⟨rfl, -, rfl⟩⟩ := strayWidth_eq_some.mp hs
  · rw [decodePayload_q, repeated, if_neg h2, Reader.fixed_of_length h ha]
    rfl
  · rw [decodePayload_pos, repeated, if_neg h2, Reader.fixed_of_length h ha]
    rfl

/-- **One call of `decodeField` consumes one item.** -/
theorem decodeField_item {field : MsgKind} {r : Reader} {rest : Bytes} (it : Item field)
    (m : Msg) (h : r.Sees (it.encode ++ rest)) :
    decodeField field r m = (r.advance it.encode.length, it.put m) := by
  cases it with
  | ofField g hg =>
    have h' : r.Sees (g.tag ++ (g.value.encode ++ rest)) := by
      simpa [Item.encode, Field.encode] using h
    rw [decodeField_of_tag m h' g.isVarint, tagWire_tag,
      show tagField (varintValue g.tag) = fieldNumber g from rfl,
      decodePayload_of_value m h'.advance hg, Reader.advance_advance]
    simp [Item.encode, Item.put, Field.encode]
  | stray tag n scalar htag hs hlen =>
    have h' : r.Sees (tag ++ (scalar ++ rest)) := by simpa [Item.encode] using h
    rw [decodeField_of_tag m h' htag]
    refine Prod.ext ?_ (decodePayload_stray_eq m hs h'.advance hlen)
    rw [decodePayload_of_stray m hs h'.advance hlen, Reader.advance_advance]
    simp [Item.encode, hlen]

/-- **What `decodeField` accepts is an item.** -/
theorem decodeField_ok {field : MsgKind} {r : Reader} {bs : Bytes} {m : Msg} (h : r.Sees bs)
    (hok : (decodeField field r m).1.ok = true) :
    ∃ (it : Item field) (rest : Bytes), bs = it.encode ++ rest := by
  obtain ⟨tag, bs, rfl, htag⟩ := Reader.varint_ok h ((advances_decodeField field r m).ok hok)
  rw [decodeField_of_tag m h htag] at hok
  rcases decodePayload_ok h.advance hok with ⟨v, rest, rfl, hw, hr⟩ | ⟨n, a, rest, hs, rfl, ha⟩
  · have hw' : varintValue tag % 8 = v.wireType := by rw [← tagWire_eq, hw]
    exact ⟨.ofField ⟨tag, v, htag, hw'⟩ hr, rest, by simp [Item.encode, Field.encode]⟩
  · exact ⟨.stray tag n a htag hs ha, rest, by simp [Item.encode]⟩

/-- The loop over a submessage. -/
def bodyLoop (field : MsgKind) : Loop Msg (Item field) where
  body := decodeField field
  run := decodeBody field
  encode := Item.encode
  put := Item.put
  run_eq r m := by
    rw [decodeBody]
    rfl
  encode_ne_nil := Item.encode_ne_nil
  body_of_item := decodeField_item
  item_of_ok := decodeField_ok

theorem decodeBody_items {field : MsgKind} (its : List (Item field)) {r : Reader} (m : Msg)
    (h : r.Sees (encodeItems its)) :
    (decodeBody field r m).1.ok = true ∧ (decodeBody field r m).2 = its.foldl Item.put m :=
  (bodyLoop field).run_of_items its m h

theorem decodeBody_ok {field : MsgKind} {r : Reader} {bs : Bytes} {m : Msg} (h : r.Sees bs)
    (hok : (decodeBody field r m).1.ok = true) :
    ∃ its : List (Item field), bs = encodeItems its :=
  (bodyLoop field).items_of_ok h hok

/-! ## The top level -/

/-- The member of the `oneof` that a field of the top level is, if it is one. -/
def member? (f : Field) : Option MsgKind := tagMember (varintValue f.tag)

theorem wireType_of_tagMember {tag : Nat} {field : MsgKind} (h : tagMember tag = some field) :
    tagWire tag = 2 := by
  by_contra hc
  rw [tagMember, if_neg hc] at h
  cases h

/-- What `decodeTopField` consumes in one call. -/
inductive TopItem where
  | skipped (f : Field) (member_eq : member? f = none)
  | member (f : Field) (field : MsgKind) (its : List (Item field))
      (member_eq : member? f = some field) (body_eq : f.value.body = encodeItems its)

namespace TopItem

def field : TopItem → Field
  | .skipped f _ => f
  | .member f .. => f

def encode (t : TopItem) : Bytes := t.field.encode

/-- The effect on the message: a member replaces it. -/
def put (m : Msg) : TopItem → Msg
  | .skipped .. => m
  | .member _ field its _ _ => its.foldl Item.put { kind := field }

def isMember : TopItem → Bool
  | .skipped .. => false
  | .member .. => true

end TopItem

def encodeTop (ts : List TopItem) : Bytes := ts.flatMap TopItem.encode

@[simp] theorem encodeTop_nil : encodeTop [] = [] := rfl

@[simp] theorem encodeTop_cons (t : TopItem) (ts : List TopItem) :
    encodeTop (t :: ts) = t.encode ++ encodeTop ts := rfl

theorem encodeTop_append (a b : List TopItem) :
    encodeTop (a ++ b) = encodeTop a ++ encodeTop b := List.flatMap_append

theorem encodeTop_eq_encodeAll : ∀ (ts : List TopItem),
    encodeTop ts = encodeAll (ts.map TopItem.field) := by
  intro ts
  induction ts with
  | nil => rfl
  | cons t ts ih =>
    rw [encodeTop_cons, ih]
    rfl

theorem decodeTopField_of_skipped {top : Reader} {tag rest : Bytes} (m : Msg)
    (h : top.Sees (tag ++ rest)) (htag : IsVarint tag)
    (hk : tagMember (varintValue tag) = none) :
    decodeTopField top m
      = ((top.advance tag.length).skip (tagWire (varintValue tag)), m) := by
  rw [decodeTopField, Reader.varint_of_isVarint h htag]
  simp only [hk]

theorem decodeTopField_of_member {top : Reader} {tag rest : Bytes} {field : MsgKind} (m : Msg)
    (h : top.Sees (tag ++ rest)) (htag : IsVarint tag)
    (hk : tagMember (varintValue tag) = some field) :
    decodeTopField top m
      = ({ (top.advance tag.length).sub.2 with
            ok := (top.advance tag.length).sub.2.ok
              && (decodeBody field (top.advance tag.length).sub.1 { kind := field }).1.ok },
          (decodeBody field (top.advance tag.length).sub.1 { kind := field }).2) := by
  rw [decodeTopField, Reader.varint_of_isVarint h htag]
  simp only [hk]

/-- **One call of `decodeTopField` consumes one item of the top level.** -/
theorem decodeTopField_item {top : Reader} {rest : Bytes} (t : TopItem) (m : Msg)
    (h : top.Sees (t.encode ++ rest)) :
    decodeTopField top m = (top.advance t.encode.length, t.put m) := by
  cases t with
  | skipped f hf =>
    have h' : top.Sees (f.tag ++ (f.value.encode ++ rest)) := by
      simpa [TopItem.encode, TopItem.field, Field.encode] using h
    rw [decodeTopField_of_skipped m h' f.isVarint hf, tagWire_tag,
      Reader.skip_of_value h'.advance, Reader.advance_advance]
    simp [TopItem.encode, TopItem.field, TopItem.put, Field.encode]
  | member f field its hf hbody =>
    have h' : top.Sees (f.tag ++ (f.value.encode ++ rest)) := by
      simpa [TopItem.encode, TopItem.field, Field.encode] using h
    have hw : f.value.wireType = 2 := by rw [← tagWire_tag, wireType_of_tagMember hf]
    obtain ⟨hsees, hadv⟩ := read_sub h'.advance hw
    rw [hbody] at hsees
    obtain ⟨hok, hm⟩ := decodeBody_items its { kind := field } hsees
    have htop : top.ok = true := h.ok
    rw [decodeTopField_of_member m h' f.isVarint hf, hadv, hm, hok, Reader.advance_advance]
    simp [TopItem.encode, TopItem.field, TopItem.put, Field.encode, Reader.advance, htop]

/-- **What `decodeTopField` accepts is an item of the top level.** -/
theorem decodeTopField_ok {top : Reader} {bs : Bytes} {m : Msg} (h : top.Sees bs)
    (hok : (decodeTopField top m).1.ok = true) :
    ∃ (t : TopItem) (rest : Bytes), bs = t.encode ++ rest := by
  obtain ⟨tag, bs, rfl, htag⟩ := Reader.varint_ok h ((advances_decodeTopField top m).ok hok)
  cases hk : tagMember (varintValue tag) with
  | none =>
    rw [decodeTopField_of_skipped m h htag hk] at hok
    obtain ⟨v, rest, rfl, hw⟩ := Reader.skip_ok h.advance hok
    have hw' : varintValue tag % 8 = v.wireType := by rw [← tagWire_eq, hw]
    exact ⟨.skipped ⟨tag, v, htag, hw'⟩ hk, rest, by
      simp [TopItem.encode, TopItem.field, Field.encode]⟩
  | some field =>
    rw [decodeTopField_of_member m h htag hk] at hok
    simp only [Bool.and_eq_true] at hok
    obtain ⟨len, body, rest, rfl, hlen, hn⟩ := Reader.sub_ok h.advance hok.1
    have hbody := hok.2
    rw [Reader.sub_of_bytes h.advance hlen hn] at hbody
    obtain ⟨its, hits⟩ := decodeBody_ok (Reader.sees_sub_body h.advance) hbody
    have hw : varintValue tag % 8 = 2 := by rw [← tagWire_eq, wireType_of_tagMember hk]
    exact ⟨.member ⟨tag, .bytes len body hlen hn, htag, hw⟩ field its hk hits, rest, by
      simp [TopItem.encode, TopItem.field, Field.encode, Value.encode]⟩

/-- The loop over the top level. -/
def topLoop : Loop Msg TopItem where
  body := decodeTopField
  run := decodeTop
  encode := TopItem.encode
  put := TopItem.put
  run_eq r m := by
    rw [decodeTop]
    rfl
  encode_ne_nil t := t.field.encode_ne_nil
  body_of_item := decodeTopField_item
  item_of_ok := decodeTopField_ok

theorem decodeTop_items (ts : List TopItem) {top : Reader} (m : Msg)
    (h : top.Sees (encodeTop ts)) :
    (decodeTop top m).1.ok = true ∧ (decodeTop top m).2 = ts.foldl TopItem.put m :=
  topLoop.run_of_items ts m h

theorem decodeTop_ok {top : Reader} {bs : Bytes} {m : Msg} (h : top.Sees bs)
    (hok : (decodeTop top m).1.ok = true) : ∃ ts : List TopItem, bs = encodeTop ts :=
  topLoop.items_of_ok h hok

/-! ## The whole -/

theorem kind_ite {c : Prop} [Decidable c] {k : MsgKind} {a b : Msg} (ha : a.kind = k)
    (hb : b.kind = k) : (if c then a else b).kind = k := by
  split <;> assumption

theorem setWipSetting_kind (f : Int) (on : Bool) (m : Msg) :
    (setWipSetting f on m).kind = m.kind :=
  kind_ite rfl <| kind_ite rfl <| kind_ite rfl <| kind_ite rfl rfl

theorem Msg.put_kind (field : MsgKind) (f : Int) (v : Value) (m : Msg) :
    (m.put field f v).kind = m.kind :=
  kind_ite rfl <| kind_ite rfl <| kind_ite rfl <| kind_ite rfl <| kind_ite rfl <| kind_ite rfl <|
    kind_ite rfl <| kind_ite (setWipSetting_kind f _ m) <| kind_ite rfl <| kind_ite rfl <|
    kind_ite rfl rfl

theorem Item.put_kind {field : MsgKind} (m : Msg) (it : Item field) :
    (it.put m).kind = m.kind := by
  cases it with
  | ofField g _ => exact Msg.put_kind field _ _ m
  | stray => exact kind_ite rfl rfl

theorem foldl_put_kind {field : MsgKind} : ∀ (its : List (Item field)) (m : Msg),
    (its.foldl Item.put m).kind = m.kind := by
  intro its
  induction its with
  | nil => exact fun _ => rfl
  | cons it its ih =>
    intro m
    rw [List.foldl_cons, ih, Item.put_kind]

/-- The kind stays `kNone` exactly as long as no member was read. -/
theorem foldl_put_kind_eq_none : ∀ (ts : List TopItem) (m : Msg),
    (ts.foldl TopItem.put m).kind = .none ↔
      m.kind = .none ∧ ¬∃ t ∈ ts, t.isMember = true := by
  intro ts
  induction ts with
  | nil =>
    intro m
    simp
  | cons t ts ih =>
    intro m
    rw [List.foldl_cons, ih]
    cases t with
    | skipped f hf => simp [TopItem.put, TopItem.isMember]
    | member f field its hf hb =>
      have hfield : field ≠ .none := by
        have hk := hf
        rw [member?, tagMember, if_pos (wireType_of_tagMember hf)] at hk
        exact (MsgKind.ofField_eq_some.mp hk).2
      simp [TopItem.put, TopItem.isMember, foldl_put_kind, hfield]

/-- **The language of `decode`, and what it reads.** -/
theorem decode_eq_true_iff {data : Bytes} {m : Msg} :
    decode data {} = (true, m) ↔ ∃ ts : List TopItem, data = encodeTop ts ∧
      (∃ t ∈ ts, t.isMember = true) ∧ m = ts.foldl TopItem.put {} := by
  have hsees := Reader.sees_data data
  constructor
  · intro h
    have hok := congrArg Prod.fst h
    have hm := congrArg Prod.snd h
    simp only [decode, Bool.and_eq_true, bne_iff_ne, ne_eq] at hok hm
    obtain ⟨htop, hkind⟩ := hok
    obtain ⟨ts, hts⟩ := decodeTop_ok hsees htop
    obtain ⟨-, hfold⟩ := decodeTop_items ts {} (by rw [← hts]; exact hsees)
    refine ⟨ts, hts, ?_, hm.symm.trans hfold⟩
    rw [hfold, foldl_put_kind_eq_none] at hkind
    simpa using hkind
  · rintro ⟨ts, hts, hmem, rfl⟩
    obtain ⟨htop, hfold⟩ := decodeTop_items ts {} (by rw [← hts]; exact hsees)
    have hkind : (ts.foldl TopItem.put {}).kind ≠ .none := by
      rw [ne_eq, foldl_put_kind_eq_none]
      exact fun hc => hc.2 hmem
    unfold decode
    rw [Prod.mk.injEq, hfold]
    exact ⟨by simp [htop, hkind], rfl⟩

end Rebocap.Proto

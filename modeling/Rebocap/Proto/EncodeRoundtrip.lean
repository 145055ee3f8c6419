import Rebocap.Proto.Acceptance
import Rebocap.Proto.Conformance
import Rebocap.Proto.Encode

/-!
# The encoders write what the schema says

`ParsesTo` is the reading of a `RebocapMsg` by a proto3 parser: fields at the top level, the last
member of the `oneof`, the fields of that member by `schema`. A byte string has at most one
reading.

* `wrap_recovers` — a member wrapped around conforming fields has their meaning
* `encoders_conform` — each of the four payloads of the driver, read by a proto3 parser and by
  `decode`
-/

namespace Rebocap.Proto

open Lib Lib.Wire

/-! ## A proto3 parser -/

/-- The messages of the protocol. The embedded position of `wip_info` is left out. -/
inductive RebocapMsg where
  | app (a : AppMsg)
  | universeChange (yaw : BitVec 32) (pos : List (BitVec 32))
  | pathFailed (failed : Int32)
  | wipFuncStateChange (switchOpen : Bool)
deriving DecidableEq

/-- The message that the fields of a member spell. -/
def RebocapMsg.ofFields (field : MsgKind) (gs : List Field) : Option RebocapMsg :=
  match field with
  | .universeChange => some (.universeChange (lastWins 1 floatValue 0#32 gs)
      (joined 2 (Value.scalars 4) gs))
  | .pathFailed => some (.pathFailed (lastWins 1 int32Value 0 gs))
  | .wipFuncStateChange => some (.wipFuncStateChange (lastWins 1 boolValue false gs))
  | _ => (AppMsg.ofFields field gs).map .app

/-- The member of the `oneof` that a field is. -/
def oneofMember (f : Field) : Option MsgKind :=
  if f.value.wireType = 2 then MsgKind.ofField f.number else none

/-- The last member wins. Occurrences of it that follow one another are merged. -/
def oneofStep (last : Option (MsgKind × Bytes)) (f : Field) : Option (MsgKind × Bytes) :=
  match oneofMember f, last with
  | none, _ => last
  | some field, some (field', body) =>
    if field = field' then some (field, body ++ f.value.body) else some (field, f.value.body)
  | some field, none => some (field, f.value.body)

/-- A tag that a parser takes: a field number from 1 to `2 ^ 29 - 1`. -/
def TagOk (f : Field) : Prop := 0 < f.number ∧ f.number < 2 ^ 29

/-- `data` is well-formed, and `msg` is what a proto3 parser reads from it. -/
def ParsesTo (data : Bytes) (msg : RebocapMsg) : Prop :=
  ∃ (fs : List Field) (field : MsgKind) (gs : List Field),
    data = encodeAll fs ∧ (∀ f ∈ fs, TagOk f) ∧
      fs.foldl oneofStep none = some (field, encodeAll gs) ∧
      (∀ g ∈ gs, TagOk g ∧ Conforms field g) ∧ RebocapMsg.ofFields field gs = some msg

/-- The message as the driver holds it. Of the members that the app does not send it keeps the
kind. -/
def RebocapMsg.toMsg : RebocapMsg → Msg
  | .app a => a.toMsg
  | .universeChange .. => { kind := .universeChange }
  | .pathFailed .. => { kind := .pathFailed }
  | .wipFuncStateChange .. => { kind := .wipFuncStateChange }

/-- `data` is a frame's payload from which everyone recovers `msg`. -/
structure Recovers (data : Bytes) (msg : RebocapMsg) : Prop where
  length_le : data.length ≤ 2044
  wellFormed : WellFormedMsg data
  parses_iff : ∀ msg', ParsesTo data msg' ↔ msg' = msg
  decode_eq : decode data {} = (true, msg.toMsg)

/-- A byte string has one reading. -/
theorem ParsesTo.unique {data : Bytes} {msg msg' : RebocapMsg} (h : ParsesTo data msg)
    (h' : ParsesTo data msg') : msg = msg' := by
  obtain ⟨fs, field, gs, rfl, -, hlast, -, hmsg⟩ := h
  obtain ⟨fs', field', gs', hfs, -, hlast', -, hmsg'⟩ := h'
  obtain rfl := encodeAll_injective hfs
  rw [hlast, Option.some.injEq, Prod.mk.injEq] at hlast'
  obtain ⟨rfl, hgs⟩ := hlast'
  obtain rfl := encodeAll_injective hgs
  exact Option.some.inj (hmsg.symm.trans hmsg')

/-! ## Varints -/

theorem or_0x80_toNat (v : Nat) : (UInt8.ofNat (v ||| 0x80)).toNat = v % 128 + 128 := by
  have hmod : (v ||| 0x80) % 256 = v % 256 ||| 0x80 := Nat.or_mod_two_pow (n := 8)
  have hall : ∀ n < 256, n ||| 0x80 = n % 128 + 128 := by decide +kernel
  rw [UInt8.toNat_ofNat', hmod, hall _ (Nat.mod_lt _ (by decide))]
  omega

theorem putVarint_of_lt {v : Nat} (h : v < 128) : putVarint v = [UInt8.ofNat v] := by
  rw [putVarint, dif_pos h]

theorem putVarint_of_ge {v : Nat} (h : ¬v < 128) :
    putVarint v = UInt8.ofNat (v ||| 0x80) :: putVarint (v / 128) := by
  rw [putVarint, dif_neg h, Nat.shiftRight_eq_div_pow]

theorem toNat_ofNat_of_lt {v : Nat} (h : v < 128) : (UInt8.ofNat v).toNat = v := by
  rw [UInt8.toNat_ofNat']
  omega

/-- Reading the groups of a written varint gives the number back. -/
theorem groups_putVarint (v : Nat) : groups (putVarint v) = v := by
  induction v using Nat.strongRecOn with
  | ind v ih =>
    by_cases h : v < 128
    · rw [putVarint_of_lt h]
      simp only [groups, toNat_ofNat_of_lt h]
      omega
    · rw [putVarint_of_ge h, groups, or_0x80_toNat, ih (v / 128) (by omega)]
      omega

/-- A number of `7 * k` bits takes at most `k` bytes. -/
theorem putVarint_upTo : ∀ {k v : Nat}, v < 128 ^ (k + 1) →
    varintUpTo (k + 1) (putVarint v) = true ∧ (putVarint v).length ≤ k + 1 := by
  intro k
  induction k with
  | zero =>
    intro v h
    have h : v < 128 := h
    rw [putVarint_of_lt h, varintUpTo_cons_last (by rwa [toNat_ofNat_of_lt h])]
    exact ⟨rfl, Nat.le_refl 1⟩
  | succ k ih =>
    intro v h
    by_cases hv : v < 128
    · rw [putVarint_of_lt hv, varintUpTo_cons_last (by rwa [toNat_ofNat_of_lt hv])]
      exact ⟨rfl, Nat.succ_le_succ (Nat.zero_le _)⟩
    · have hdiv : v / 128 < 128 ^ (k + 1) :=
        Nat.div_lt_of_lt_mul (by rw [Nat.mul_comm]; exact h)
      obtain ⟨hup, hlen⟩ := ih hdiv
      have hmore : ¬(UInt8.ofNat (v ||| 0x80)).toNat < 128 := by
        rw [or_0x80_toNat]
        omega
      rw [putVarint_of_ge hv, varintUpTo_cons_more hmore]
      exact ⟨hup, Nat.succ_le_succ hlen⟩

theorem isVarint_putVarint {v : Nat} (h : v < 2 ^ 64) : IsVarint (putVarint v) :=
  (putVarint_upTo (k := 9) (by omega)).1

theorem varintValue_putVarint {v : Nat} (h : v < 2 ^ 64) : varintValue (putVarint v) = v := by
  rw [varintValue, groups_putVarint, Nat.mod_eq_of_lt h]

/-- An `int32` takes at most five bytes. -/
theorem length_putVarint_le {v : Nat} (h : v < 2 ^ 32) : (putVarint v).length ≤ 5 :=
  (putVarint_upTo (k := 4) (by omega)).2

theorem toUInt32_lt (v : Int32) : v.toUInt32.toNat < 2 ^ 32 := v.toUInt32.toNat_lt

theorem isVarint_int32 (v : Int32) : IsVarint (putVarint v.toUInt32.toNat) :=
  isVarint_putVarint (Nat.lt_trans (toUInt32_lt v) (by decide))

/-! ## Packed lists -/

theorem length_flatMap_putFixed {n : Nat} : ∀ (vs : List (BitVec (8 * n))),
    (vs.flatMap putFixed).length = n * vs.length := by
  intro vs
  induction vs with
  | nil => rfl
  | cons v rest ih =>
    rw [List.flatMap_cons, List.length_append, ih, putFixed, length_leBytes, List.length_cons,
      Nat.mul_succ, Nat.add_comm]

theorem leValue_putFixed {n : Nat} (v : BitVec (8 * n)) : leValue (putFixed v) = v.toNat := by
  have h : v.toNat < 256 ^ n := by
    have := v.isLt
    rwa [Nat.pow_mul] at this
  rw [putFixed, leValue_leBytes_of_lt h]

/-- Reading the numbers of a written list gives the list back. -/
theorem packed_putFixed {n : Nat} [NeZero n] : ∀ (vs : List (BitVec (8 * n))),
    packed n (vs.flatMap putFixed) = vs := by
  intro vs
  induction vs with
  | nil => exact packed_nil n
  | cons v rest ih =>
    rw [List.flatMap_cons, packed_append _ (by rw [putFixed, length_leBytes]), ih,
      leValue_putFixed, BitVec.ofNat_toNat, BitVec.setWidth_eq]

/-! ## The fields that are written -/

/-- A tag of one byte in front of a payload of its wire type. -/
structure TagByte (tag : UInt8) (value : Value) : Prop where
  lt : tag.toNat < 128
  wireType_eq : tag.toNat % 8 = value.wireType

theorem varintValue_byte {tag : UInt8} (h : tag.toNat < 128) : varintValue [tag] = tag.toNat := by
  simp only [varintValue, groups]
  omega

theorem TagByte.isVarint {tag : UInt8} {value : Value} (h : TagByte tag value) :
    IsVarint [tag] := (varintUpTo_cons_last h.lt).mpr rfl

theorem TagByte.varintValue_mod {tag : UInt8} {value : Value} (h : TagByte tag value) :
    varintValue [tag] % 8 = value.wireType := by
  rw [varintValue_byte h.lt, h.wireType_eq]

def tagged (tag : UInt8) (value : Value) (h : TagByte tag value) : Field :=
  ⟨[tag], value, h.isVarint, h.varintValue_mod⟩

@[simp] theorem encode_tagged {tag : UInt8} {value : Value} (h : TagByte tag value) :
    (tagged tag value h).encode = tag :: value.encode := rfl

@[simp] theorem value_tagged {tag : UInt8} {value : Value} (h : TagByte tag value) :
    (tagged tag value h).value = value := rfl

theorem number_tagged {tag : UInt8} {value : Value} (h : TagByte tag value) :
    (tagged tag value h).number = tag.toNat / 8 := by
  rw [Field.number, tagged, varintValue_byte h.lt]

/-- An `int32` is written as the 32 bits of its two's complement. -/
def int32Payload (v : Int32) : Value := .varint (putVarint v.toUInt32.toNat) (isVarint_int32 v)

@[simp] theorem int32Value_int32Payload (v : Int32) : int32Value (int32Payload v) = v := by
  have h : varintValue (putVarint v.toUInt32.toNat) = v.toUInt32.toNat :=
    varintValue_putVarint (Nat.lt_trans (toUInt32_lt v) (by decide))
  rw [int32Value, int32Payload, Value.number, h]
  apply Int32.toBitVec_inj.mp
  simp

/-- A scalar that is left out when it is zero. -/
def int32Fields (tag : UInt8) (v : Int32) (h : TagByte tag (int32Payload v)) : List Field :=
  if v ≠ 0 then [tagged tag (int32Payload v) h] else []

theorem encodeAll_int32Fields {tag : UInt8} {v : Int32} (h : TagByte tag (int32Payload v)) :
    encodeAll (int32Fields tag v h)
      = if v ≠ 0 then tag :: putVarint v.toUInt32.toNat else [] := by
  unfold int32Fields
  split
  · simp [int32Payload, Value.encode]
  · rfl

theorem mem_int32Fields {tag : UInt8} {v : Int32} {h : TagByte tag (int32Payload v)} {g : Field}
    (hg : g ∈ int32Fields tag v h) : g = tagged tag (int32Payload v) h := by
  unfold int32Fields at hg
  split at hg
  · exact List.mem_singleton.mp hg
  · cases hg

/-- A scalar that is read back, also when it was left out. -/
theorem lastWins_int32Fields {tag : UInt8} {v : Int32} (h : TagByte tag (int32Payload v)) :
    lastWins (tag.toNat / 8) int32Value 0 (int32Fields tag v h) = v := by
  unfold int32Fields
  split
  next => simp [lastWins, number_tagged]
  next hv =>
    rw [ne_eq, not_not] at hv
    rw [hv]
    rfl

/-- A `float` is written as its bits. -/
def floatPayload (v : BitVec 32) : Value := .fixed32 (putFixed (n := 4) v) (length_leBytes 4 _)

@[simp] theorem floatValue_floatPayload (v : BitVec 32) : floatValue (floatPayload v) = v := by
  show BitVec.ofNat 32 (leValue (putFixed (n := 4) v)) = v
  rw [leValue_putFixed, BitVec.ofNat_toNat, BitVec.setWidth_eq]

theorem length_packed_lt {n : Nat} {vs : List (BitVec (8 * n))} (h : n * vs.length < 128) :
    (UInt8.ofNat (n * vs.length)).toNat < 128 := by
  rwa [toNat_ofNat_of_lt h]

theorem isVarint_length {n : Nat} {vs : List (BitVec (8 * n))} (h : n * vs.length < 128) :
    IsVarint [UInt8.ofNat (n * vs.length)] :=
  (varintUpTo_cons_last (length_packed_lt h)).mpr rfl

theorem varintValue_length {n : Nat} {vs : List (BitVec (8 * n))} (h : n * vs.length < 128) :
    varintValue [UInt8.ofNat (n * vs.length)] = (vs.flatMap putFixed).length := by
  rw [varintValue_byte (length_packed_lt h), toNat_ofNat_of_lt h, length_flatMap_putFixed]

/-- A packed list behind a length of one byte. -/
def packedPayload {n : Nat} (vs : List (BitVec (8 * n))) (h : n * vs.length < 128) : Value :=
  .bytes [UInt8.ofNat (n * vs.length)] (vs.flatMap putFixed) (isVarint_length h)
    (varintValue_length h)

@[simp] theorem scalars_packedPayload {n : Nat} [NeZero n] {vs : List (BitVec (8 * n))}
    (h : n * vs.length < 128) : (packedPayload vs h).scalars n = vs := packed_putFixed vs

theorem listPayload_packedPayload {n w : Nat} {vs : List (BitVec (8 * n))}
    (h : n * vs.length < 128) : ListPayload n w (packedPayload vs h) :=
  Or.inl ⟨rfl, ⟨vs.length, length_flatMap_putFixed vs⟩⟩

/-! ## A wrapped member -/

/-- The tag of a member takes one byte. -/
theorem putVarint_member {field : MsgKind} (h : field ≠ .none) :
    ∃ tag : UInt8, putVarint (field.toInt.toNat <<< 3 ||| 2) = [tag] ∧
      (tag.toNat : Int) = 8 * field.toInt + 2 ∧ tag.toNat < 128 := by
  cases field with
  | none => exact absurd rfl h
  | position => exact ⟨0x0a, by decide +kernel, by decide, by decide⟩
  | trackerAdded => exact ⟨0x12, by decide +kernel, by decide, by decide⟩
  | trackerStatus => exact ⟨0x1a, by decide +kernel, by decide, by decide⟩
  | universeChange => exact ⟨0x22, by decide +kernel, by decide, by decide⟩
  | pathFailed => exact ⟨0x2a, by decide +kernel, by decide, by decide⟩
  | wipInfo => exact ⟨0x32, by decide +kernel, by decide, by decide⟩
  | wipSetting => exact ⟨0x3a, by decide +kernel, by decide, by decide⟩
  | wipFuncStateChange => exact ⟨0x42, by decide +kernel, by decide, by decide⟩

/-- `wrap` writes one field of the top level. -/
theorem exists_field_of_wrap {field : MsgKind} {inner : Bytes} (hk : field ≠ .none)
    (hlen : inner.length < 2 ^ 64) :
    ∃ f : Field, wrap field inner = f.encode ∧ (varintValue f.tag : Int) = 8 * field.toInt + 2 ∧
      f.value.wireType = 2 ∧ f.value.body = inner := by
  obtain ⟨tag, hput, htag, hlt⟩ := putVarint_member hk
  let value : Value := .bytes (putVarint inner.length) inner (isVarint_putVarint hlen)
    (varintValue_putVarint hlen)
  have hbyte : TagByte tag value := ⟨hlt, by show tag.toNat % 8 = 2; omega⟩
  refine ⟨tagged tag value hbyte, ?_, ?_, rfl, rfl⟩
  · rw [wrap, hput, encode_tagged]
    simp [value, Value.encode]
  · show (varintValue [tag] : Int) = _
    rw [varintValue_byte hlt, htag]

theorem toInt_pos {field : MsgKind} (h : field ≠ .none) : 0 < field.toInt ∧ field.toInt ≤ 8 := by
  cases field with
  | none => exact absurd rfl h
  | _ => decide

/-- A member wrapped around conforming fields is read by a parser to their meaning. -/
theorem parsesTo_wrap {field : MsgKind} {gs : List Field} {msg : RebocapMsg}
    (hk : field ≠ .none) (hlen : (encodeAll gs).length < 2 ^ 64)
    (hgs : ∀ g ∈ gs, TagOk g ∧ Conforms field g)
    (hmsg : RebocapMsg.ofFields field gs = some msg) :
    ParsesTo (wrap field (encodeAll gs)) msg := by
  obtain ⟨f, hf, htag, hwire, hbody⟩ := exists_field_of_wrap hk hlen
  obtain ⟨hpos, hle⟩ := toInt_pos hk
  have hnumber : (f.number : Int) = field.toInt := by
    rw [Field.number]
    omega
  have hmember : oneofMember f = some field := by
    rw [oneofMember, if_pos hwire, hnumber]
    exact MsgKind.ofField_eq_some.mpr ⟨rfl, hk⟩
  refine ⟨[f], field, gs, by rw [hf, encodeAll_cons, encodeAll_nil, List.append_nil], ?_, ?_,
    hgs, hmsg⟩
  · intro f' hf'
    obtain rfl := List.mem_singleton.mp hf'
    exact ⟨by omega, by omega⟩
  · simp [oneofStep, hmember, hbody]

theorem wellFormed_wrap {field : MsgKind} {gs : List Field} (hk : field ≠ .none)
    (hlen : (encodeAll gs).length < 2 ^ 64) (hgs : ∀ g ∈ gs, Conforms field g) :
    WellFormedMsg (wrap field (encodeAll gs)) := by
  obtain ⟨f, hf, htag, -, hbody⟩ := exists_field_of_wrap hk hlen
  have hmember : member? f = some field := tagMember_of_tag_eq hk htag
  refine ⟨[f], by rw [hf, encodeAll_cons, encodeAll_nil, List.append_nil], ?_⟩
  intro f' hf' field' hfield'
  obtain rfl := List.mem_singleton.mp hf'
  obtain rfl : field = field' := Option.some.inj (hmember.symm.trans hfield')
  refine ⟨gs, hbody, ?_⟩
  rintro rfl g hg
  exact positionFieldOk_of_readable (readable_of_conforms (hgs g hg))

/-- `decode` reads it field by field. -/
theorem decode_wrap {field : MsgKind} {gs : List Field} (hk : field ≠ .none)
    (hlen : (encodeAll gs).length < 2 ^ 64) (hgs : ∀ g ∈ gs, Conforms field g) :
    decode (wrap field (encodeAll gs)) {} = (true, putAll field gs { kind := field }) := by
  obtain ⟨f, hf, htag, hwire, hbody⟩ := exists_field_of_wrap hk hlen
  obtain ⟨its, hits, hput⟩ := exists_items_of_conforms hgs
  have hmember : member? f = some field := tagMember_of_tag_eq hk htag
  let member : TopItem := .member f field its hmember (by rw [hbody, hits])
  refine decode_eq_true_iff.mpr ⟨[member], ?_, ⟨member, List.mem_singleton_self _, rfl⟩, ?_⟩
  · rw [hf, encodeTop_cons, encodeTop_nil, List.append_nil]
    rfl
  · rw [← hput]
    rfl

/-- The members that the app does not send are skipped field by field. -/
theorem putAll_of_unread {field : MsgKind} (h : ∀ f v m, Msg.put field f v m = m) :
    ∀ (gs : List Field) (m : Msg), putAll field gs m = m := by
  intro gs
  induction gs with
  | nil => exact fun _ => rfl
  | cons g rest ih =>
    intro m
    rw [putAll_cons, h, ih]

theorem putAll_of_rebocapMsg {field : MsgKind} {gs : List Field} {msg : RebocapMsg}
    (hgs : ∀ g ∈ gs, Conforms field g) (hmsg : RebocapMsg.ofFields field gs = some msg) :
    putAll field gs { kind := field } = msg.toMsg := by
  have happ : (AppMsg.ofFields field gs).map .app = some msg →
      putAll field gs { kind := field } = msg.toMsg := by
    intro h
    obtain ⟨a, ha, rfl⟩ := Option.map_eq_some_iff.mp h
    exact putAll_of_ofFields hgs ha
  cases field with
  | universeChange | pathFailed | wipFuncStateChange =>
    cases hmsg
    exact putAll_of_unread (fun _ _ _ => by simp [Msg.put, MsgKind.toInt]) _ _
  | none | position | trackerAdded | trackerStatus | wipInfo | wipSetting => exact happ hmsg

theorem length_wrap_le {field : MsgKind} {inner : Bytes} (hk : field ≠ .none)
    (hlen : inner.length < 2 ^ 32) : (wrap field inner).length ≤ 6 + inner.length := by
  obtain ⟨tag, hput, -, -⟩ := putVarint_member hk
  have := length_putVarint_le hlen
  rw [wrap, hput, List.length_append, List.length_append, List.length_singleton]
  omega

/-- **A member wrapped around conforming fields has their meaning.** -/
theorem wrap_recovers {field : MsgKind} {gs : List Field} {msg : RebocapMsg}
    (hk : field ≠ .none) (hlen : (encodeAll gs).length ≤ 2038)
    (hgs : ∀ g ∈ gs, TagOk g ∧ Conforms field g)
    (hmsg : RebocapMsg.ofFields field gs = some msg) :
    Recovers (wrap field (encodeAll gs)) msg := by
  have hlt : (encodeAll gs).length < 2 ^ 64 := by omega
  have hconf : ∀ g ∈ gs, Conforms field g := fun g hg => (hgs g hg).2
  have hparse := parsesTo_wrap hk hlt hgs hmsg
  constructor
  · have hle : (wrap field (encodeAll gs)).length ≤ 6 + (encodeAll gs).length :=
      length_wrap_le hk (by omega)
    omega
  · exact wellFormed_wrap hk hlt hconf
  · exact fun msg' => ⟨fun h => h.unique hparse, fun h => h ▸ hparse⟩
  · rw [decode_wrap hk hlt hconf, putAll_of_rebocapMsg hconf hmsg]

/-! ## The fields of one message -/

theorem encodeAll_append (a b : List Field) : encodeAll (a ++ b) = encodeAll a ++ encodeAll b :=
  List.flatMap_append

theorem lastWins_append {α : Type} (n : Nat) (read : Value → α) (d : α) (a b : List Field) :
    lastWins n read d (a ++ b) = lastWins n read (lastWins n read d a) b := List.foldl_append

theorem joined_append {α : Type} (n : Nat) (read : Value → List α) (a b : List Field) :
    joined n read (a ++ b) = joined n read a ++ joined n read b := List.flatMap_append

/-- Fields of other numbers leave a scalar as it is. -/
theorem lastWins_of_ne {α : Type} {n : Nat} (read : Value → α) (d : α) : ∀ {gs : List Field},
    (∀ g ∈ gs, g.number ≠ n) → lastWins n read d gs = d := by
  intro gs
  induction gs with
  | nil => exact fun _ => rfl
  | cons g rest ih =>
    intro h
    rw [lastWins_cons, if_neg (h g List.mem_cons_self),
      ih fun x hx => h x (List.mem_cons_of_mem _ hx)]

theorem joined_of_ne {α : Type} {n : Nat} (read : Value → List α) : ∀ {gs : List Field},
    (∀ g ∈ gs, g.number ≠ n) → joined n read gs = [] := by
  intro gs
  induction gs with
  | nil => exact fun _ => rfl
  | cons g rest ih =>
    intro h
    rw [joined_cons, if_neg (h g List.mem_cons_self),
      ih fun x hx => h x (List.mem_cons_of_mem _ hx), List.nil_append]

theorem conforms_tagged {field : MsgKind} {tag : UInt8} {value : Value} {h : TagByte tag value}
    (ty : FieldType) (hs : schema field (tag.toNat / 8) = some ty) (ha : ty.Accepts value)
    (hpos : 8 ≤ tag.toNat) : TagOk (tagged tag value h) ∧ Conforms field (tagged tag value h) := by
  have hlt := h.lt
  rw [TagOk, number_tagged]
  refine ⟨⟨by omega, by omega⟩, ⟨by rw [number_tagged]; omega, ?_⟩⟩
  intro ty' hty'
  rw [number_tagged, hs] at hty'
  cases hty'
  exact ha

theorem conforms_int32Fields {field : MsgKind} {tag : UInt8} {v : Int32}
    {h : TagByte tag (int32Payload v)} (ty : FieldType)
    (hs : schema field (tag.toNat / 8) = some ty) (ha : ty.Accepts (int32Payload v))
    (hpos : 8 ≤ tag.toNat) :
    ∀ g ∈ int32Fields tag v h, TagOk g ∧ Conforms field g := by
  intro g hg
  rw [mem_int32Fields hg]
  exact conforms_tagged ty hs ha hpos

theorem number_int32Fields {tag : UInt8} {v : Int32} {h : TagByte tag (int32Payload v)} {n : Nat}
    (hn : tag.toNat / 8 ≠ n) : ∀ g ∈ int32Fields tag v h, g.number ≠ n := by
  intro g hg
  rw [mem_int32Fields hg, number_tagged]
  exact hn

theorem length_int32Fields {tag : UInt8} {v : Int32} (h : TagByte tag (int32Payload v)) :
    (encodeAll (int32Fields tag v h)).length ≤ 6 := by
  have := length_putVarint_le (toUInt32_lt v)
  rw [encodeAll_int32Fields]
  split
  · rw [List.length_cons]
    omega
  · exact Nat.zero_le 6

/-! ## The encoders -/

theorem tagByte_int32 {tag : UInt8} (v : Int32) (hlt : tag.toNat < 128)
    (hw : tag.toNat % 8 = 0) : TagByte tag (int32Payload v) := ⟨hlt, hw⟩

theorem encodePathFailed_recovers (failed : Int32) :
    Recovers (encodePathFailed failed) (.pathFailed failed) := by
  have htag : TagByte 0x08 (int32Payload failed) := tagByte_int32 failed (by decide) (by decide)
  have hlen := length_int32Fields htag
  rw [encodePathFailed, ← encodeAll_int32Fields htag]
  refine wrap_recovers nofun (by omega) (conforms_int32Fields .int32 rfl rfl (by decide)) ?_
  show some (RebocapMsg.pathFailed _) = _
  rw [show (1 : Nat) = (0x08 : UInt8).toNat / 8 from rfl, lastWins_int32Fields]

theorem encodeStatus_recovers (id status : Int32) :
    Recovers (encodeStatus id status) (.app (.trackerStatus id status 0#32)) := by
  have hid : TagByte 0x08 (int32Payload id) := tagByte_int32 id (by decide) (by decide)
  have hstatus : TagByte 0x10 (int32Payload status) :=
    tagByte_int32 status (by decide) (by decide)
  have hlen := length_int32Fields hid
  have hlen' := length_int32Fields hstatus
  rw [encodeStatus, ← encodeAll_int32Fields hid, ← encodeAll_int32Fields hstatus,
    ← encodeAll_append]
  refine wrap_recovers nofun ?_ ?_ ?_
  · rw [encodeAll_append, List.length_append]
    omega
  · intro g hg
    rcases List.mem_append.mp hg with hg | hg
    · exact conforms_int32Fields .int32 rfl rfl (by decide) g hg
    · exact conforms_int32Fields .enum rfl rfl (by decide) g hg
  · have h1 : lastWins 1 int32Value 0 (int32Fields 0x08 id hid) = id := lastWins_int32Fields hid
    have h2 : lastWins 2 int32Value 0 (int32Fields 0x10 status hstatus) = status :=
      lastWins_int32Fields hstatus
    simp only [RebocapMsg.ofFields, AppMsg.ofFields, Option.map_some, lastWins_append, h1,
      lastWins_of_ne int32Value _ (number_int32Fields (h := hstatus) (n := 1) (by decide)),
      lastWins_of_ne int32Value _ (number_int32Fields (h := hid) (n := 2) (by decide)), h2,
      lastWins_of_ne floatValue _ (number_int32Fields (h := hstatus) (n := 3) (by decide)),
      lastWins_of_ne floatValue _ (number_int32Fields (h := hid) (n := 3) (by decide))]

theorem flatMap_finRange {n k : Nat} (vs : Fin k → BitVec (8 * n)) :
    (List.finRange k).flatMap (fun i => putFixed (vs i)) = (List.ofFn vs).flatMap putFixed := by
  rw [List.ofFn_eq_map, List.flatMap_map]

theorem encode_packedPayload {n k : Nat} {vs : Fin k → BitVec (8 * n)}
    (h : n * (List.ofFn vs).length < 128) :
    (packedPayload (List.ofFn vs) h).encode
      = UInt8.ofNat (n * k) :: (List.finRange k).flatMap (fun i => putFixed (vs i)) := by
  rw [packedPayload, Value.encode, List.singleton_append, flatMap_finRange, List.length_ofFn]

theorem length_finRange_putFixed {n k : Nat} (vs : Fin k → BitVec (8 * n)) :
    ((List.finRange k).flatMap (fun i => putFixed (vs i))).length = n * k := by
  rw [flatMap_finRange, length_flatMap_putFixed, List.length_ofFn]

theorem ofFields_position {id : Int32} {q : List (BitVec 64)} {pos : List (BitVec 32)}
    {hqlen : 8 * q.length < 128} {hposlen : 4 * pos.length < 128}
    (hid : TagByte 0x08 (int32Payload id)) (hq : TagByte 0x52 (packedPayload (n := 8) q hqlen))
    (hpos : TagByte 0x5a (packedPayload (n := 4) pos hposlen)) :
    RebocapMsg.ofFields .position
        (int32Fields 0x08 id hid ++ [tagged 0x52 _ hq, tagged 0x5a _ hpos])
      = some (.app (.position id q pos)) := by
  have hqn : (tagged 0x52 _ hq).number = 10 := number_tagged hq
  have hposn : (tagged 0x5a _ hpos).number = 11 := number_tagged hpos
  have hscalars : (packedPayload (n := 8) q hqlen).scalars 8 = q := scalars_packedPayload hqlen
  have hscalars' : (packedPayload (n := 4) pos hposlen).scalars 4 = pos :=
    scalars_packedPayload hposlen
  have h1 : lastWins 1 int32Value 0 (int32Fields 0x08 id hid) = id := lastWins_int32Fields hid
  simp only [RebocapMsg.ofFields, AppMsg.ofFields, Option.map_some, lastWins_append, h1,
    joined_append, joined_of_ne _ (number_int32Fields (h := hid) (n := 10) (by decide)),
    joined_of_ne _ (number_int32Fields (h := hid) (n := 11) (by decide))]
  simp [lastWins, joined, hqn, hposn, hscalars, hscalars']

theorem encodePosition_recovers (id : Int32) (q : Fin 4 → BitVec 64) (pos : Fin 3 → BitVec 32) :
    Recovers (encodePosition id q pos)
      (.app (.position id (List.ofFn q) (List.ofFn pos))) := by
  have hid : TagByte 0x08 (int32Payload id) := tagByte_int32 id (by decide) (by decide)
  have hqlen : 8 * (List.ofFn q).length < 128 := by simp
  have hposlen : 4 * (List.ofFn pos).length < 128 := by simp
  have hq : TagByte 0x52 (packedPayload (n := 8) (List.ofFn q) hqlen) := ⟨by decide, rfl⟩
  have hpos : TagByte 0x5a (packedPayload (n := 4) (List.ofFn pos) hposlen) := ⟨by decide, rfl⟩
  let gs := int32Fields 0x08 id hid ++ [tagged 0x52 _ hq, tagged 0x5a _ hpos]
  have hencode : encodePosition id q pos = wrap .position (encodeAll gs) := by
    simp only [gs, encodePosition, encodeAll_append, encodeAll_int32Fields, encodeAll_cons,
      encode_tagged, encode_packedPayload, encodeAll_nil, List.append_assoc, List.cons_append,
      List.nil_append, List.append_nil]
    rfl
  rw [hencode]
  refine wrap_recovers nofun ?_ ?_ ?_
  · have hlen := length_int32Fields hid
    simp only [gs, encodeAll_append, encodeAll_cons, encode_tagged, encode_packedPayload,
      encodeAll_nil, List.length_append, List.length_cons, List.length_nil,
      length_finRange_putFixed (n := 8) q, length_finRange_putFixed (n := 4) pos]
    omega
  · intro g hg
    rcases List.mem_append.mp hg with hg | hg
    · exact conforms_int32Fields .int32 rfl rfl (by decide) g hg
    · rcases List.mem_pair.mp hg with rfl | rfl
      · exact conforms_tagged .repeatedDouble rfl (listPayload_packedPayload _) (by decide)
      · exact conforms_tagged .repeatedFloat rfl (listPayload_packedPayload _) (by decide)
  · exact ofFields_position hid hq hpos

/-- A number and what is read of it: the sign of a zero is lost. -/
def unsignedZero (v : BitVec 32) : BitVec 32 := if v = 0x80000000#32 then 0#32 else v

theorem beq_zero_iff {v : BitVec 32} :
    (Binary32.mk v == 0) = true ↔ v = 0#32 ∨ v = 0x80000000#32 := by
  constructor
  · intro h
    rcases Binary32.eq_or_zero_of_beq h with heq | ⟨hmag, -⟩
    · exact .inl (congrArg Binary32.bits heq).symm
    · have hlt := v.isLt
      have hmod : v.toNat % 2 ^ 31 = 0 := hmag
      have hv : v.toNat = 0 ∨ v.toNat = 2 ^ 31 := by omega
      rcases hv with hv | hv
      · exact .inl (BitVec.eq_of_toNat_eq hv)
      · exact .inr (BitVec.eq_of_toNat_eq hv)
  · rintro (rfl | rfl)
    · exact Binary32.zero_beq_zero
    · exact Binary32.beq_def.mpr ⟨by decide, by decide, by decide⟩

/-- The field of a yaw that is not zero. -/
def yawFields (yaw : BitVec 32) (h : TagByte 0x0d (floatPayload yaw)) : List Field :=
  if (Binary32.mk yaw == 0) = false then [tagged 0x0d (floatPayload yaw) h] else []

theorem encodeAll_yawFields {yaw : BitVec 32} (h : TagByte 0x0d (floatPayload yaw)) :
    encodeAll (yawFields yaw h)
      = if (Binary32.mk yaw == 0) = false then 0x0d :: putFixed (n := 4) yaw else [] := by
  unfold yawFields
  split
  · simp [floatPayload, Value.encode]
  · rfl

theorem mem_yawFields {yaw : BitVec 32} {h : TagByte 0x0d (floatPayload yaw)} {g : Field}
    (hg : g ∈ yawFields yaw h) : g = tagged 0x0d (floatPayload yaw) h := by
  unfold yawFields at hg
  split at hg
  · exact List.mem_singleton.mp hg
  · cases hg

theorem lastWins_yawFields {yaw : BitVec 32} (h : TagByte 0x0d (floatPayload yaw)) :
    lastWins 1 floatValue 0#32 (yawFields yaw h) = unsignedZero yaw := by
  have hn : (tagged 0x0d (floatPayload yaw) h).number = 1 := number_tagged h
  unfold yawFields unsignedZero
  cases hz : (Binary32.mk yaw == 0) with
  | false =>
    have hne : yaw ≠ 0x80000000#32 := by
      rintro rfl
      rw [beq_zero_iff.mpr (.inr rfl)] at hz
      cases hz
    rw [if_pos rfl, if_neg hne]
    simp [lastWins, hn]
  | true =>
    rw [if_neg (by decide)]
    rcases beq_zero_iff.mp hz with rfl | rfl
    · rfl
    · rfl

theorem ofFields_universeChange {yaw : BitVec 32} {pos : List (BitVec 32)}
    {hposlen : 4 * pos.length < 128} (hyaw : TagByte 0x0d (floatPayload yaw))
    (hpos : TagByte 0x12 (packedPayload (n := 4) pos hposlen)) :
    RebocapMsg.ofFields .universeChange (yawFields yaw hyaw ++ [tagged 0x12 _ hpos])
      = some (.universeChange (unsignedZero yaw) pos) := by
  have hposn : (tagged 0x12 _ hpos).number = 2 := number_tagged hpos
  have hscalars : (packedPayload (n := 4) pos hposlen).scalars 4 = pos :=
    scalars_packedPayload hposlen
  have hyaw2 : ∀ g ∈ yawFields yaw hyaw, g.number ≠ 2 := by
    intro g hg
    rw [mem_yawFields hg, number_tagged]
    decide
  simp only [RebocapMsg.ofFields, lastWins_append, lastWins_yawFields, joined_append,
    joined_of_ne _ hyaw2]
  simp [lastWins, joined, hposn, hscalars]

theorem encodeUniverse_recovers (yaw : BitVec 32) (pos : Fin 3 → BitVec 32) :
    Recovers (encodeUniverse yaw pos) (.universeChange (unsignedZero yaw) (List.ofFn pos)) := by
  have hyaw : TagByte 0x0d (floatPayload yaw) := ⟨by decide, rfl⟩
  have hposlen : 4 * (List.ofFn pos).length < 128 := by simp
  have hpos : TagByte 0x12 (packedPayload (n := 4) (List.ofFn pos) hposlen) := ⟨by decide, rfl⟩
  let gs := yawFields yaw hyaw ++ [tagged 0x12 _ hpos]
  have hencode : encodeUniverse yaw pos = wrap .universeChange (encodeAll gs) := by
    simp only [gs, encodeUniverse, encodeAll_append, encodeAll_yawFields, encodeAll_cons,
      encode_tagged, encode_packedPayload, encodeAll_nil, List.append_assoc, List.cons_append,
      List.nil_append, List.append_nil]
    rfl
  rw [hencode]
  refine wrap_recovers nofun ?_ ?_ ?_
  · have hlen : (encodeAll (yawFields yaw hyaw)).length ≤ 5 := by
      rw [encodeAll_yawFields]
      split
      · rw [List.length_cons, putFixed, length_leBytes]
      · exact Nat.zero_le 5
    simp only [gs, encodeAll_append, encodeAll_cons, encode_tagged, encode_packedPayload,
      encodeAll_nil, List.length_append, List.length_cons, List.length_nil,
      length_finRange_putFixed (n := 4) pos]
    omega
  · intro g hg
    rcases List.mem_append.mp hg with hg | hg
    · rw [mem_yawFields hg]
      exact conforms_tagged .float rfl rfl (by decide)
    · rw [List.mem_singleton.mp hg]
      exact conforms_tagged .repeatedFloat rfl (listPayload_packedPayload _) (by decide)
  · exact ofFields_universeChange hyaw hpos

/-- **Each payload of the driver is read back by a proto3 parser and by `decode`.** -/
theorem encoders_conform (id status failed : Int32) (q : Fin 4 → BitVec 64)
    (pos : Fin 3 → BitVec 32) (yaw : BitVec 32) :
    Recovers (encodeStatus id status) (.app (.trackerStatus id status 0#32)) ∧
      Recovers (encodePosition id q pos)
        (.app (.position id (List.ofFn q) (List.ofFn pos))) ∧
      Recovers (encodeUniverse yaw pos)
        (.universeChange (unsignedZero yaw) (List.ofFn pos)) ∧
      Recovers (encodePathFailed failed) (.pathFailed failed) :=
  ⟨encodeStatus_recovers id status, encodePosition_recovers id q pos,
    encodeUniverse_recovers yaw pos, encodePathFailed_recovers failed⟩

end Rebocap.Proto

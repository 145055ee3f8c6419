import Rebocap.Proto.Grammar

/-!
# `decode` reads every conformant serialisation

`schema` is `proto/ReboTracker.proto`. A serialisation of a member is any sequence of fields that
conform to it, in any order, with scalars repeated, lists cut into packed and unpacked pieces
and unknown fields between them. `AppMsg.ofFields` is the proto3 meaning of such a sequence: the
last occurrence of a scalar wins, the occurrences of a list are joined, and what does not occur
has its default.

* `decode_serialization` — `decode` reads exactly that meaning
-/

namespace Rebocap.Proto

open Lib Lib.Wire

/-! ## The schema -/

inductive FieldType where
  | int32
  | enum
  | bool
  | float
  | string
  | message
  | repeatedDouble
  | repeatedFloat

/-- The payloads that a field of a type is written with. -/
def FieldType.Accepts : FieldType → Value → Prop
  | .int32, v | .enum, v | .bool, v => v.wireType = 0
  | .float, v => v.wireType = 5
  | .string, v | .message, v => v.wireType = 2
  | .repeatedDouble, v => ListPayload 8 1 v
  | .repeatedFloat, v => ListPayload 4 5 v

/-- The fields of the members of `RebocapMsg`. -/
def schema : MsgKind → Nat → Option FieldType
  -- Position
  | .position, 1 => some .int32
  | .position, 10 => some .repeatedDouble
  | .position, 11 => some .repeatedFloat
  -- DeviceNew
  | .trackerAdded, 1 => some .int32
  | .trackerAdded, 3 => some .int32
  | .trackerAdded, 4 => some .string
  -- DeviceSt
  | .trackerStatus, 1 => some .int32
  | .trackerStatus, 2 => some .enum
  | .trackerStatus, 3 => some .float
  -- UniverseChange
  | .universeChange, 1 => some .float
  | .universeChange, 2 => some .repeatedFloat
  -- PathFailed
  | .pathFailed, 1 => some .int32
  -- WipInfo
  | .wipInfo, 1 => some .message
  | .wipInfo, 2 => some .float
  | .wipInfo, 3 => some .float
  | .wipInfo, 4 => some .enum
  -- WipSetting
  | .wipSetting, 1 => some .bool
  | .wipSetting, 2 => some .bool
  | .wipSetting, 3 => some .bool
  | .wipSetting, 4 => some .bool
  | .wipSetting, 5 => some .bool
  -- WipFuncStateChange
  | .wipFuncStateChange, 1 => some .bool
  | _, _ => none

/-- A field that a writer of the member may emit: of the type that the schema gives it, or
unknown to it. -/
structure Conforms (field : MsgKind) (g : Field) : Prop where
  number_lt : g.number < 2 ^ 29
  accepts : ∀ ty, schema field g.number = some ty → ty.Accepts g.value

/-- A field at the top level that is none of the members. -/
structure Unknown (f : Field) : Prop where
  number_lt : f.number < 2 ^ 29
  not_member : f.number = 0 ∨ 8 < f.number

/-! ## The meaning of a serialisation -/

/-- A scalar field: the last occurrence wins. -/
def lastWins {α : Type} (n : Nat) (read : Value → α) (default : α) (gs : List Field) : α :=
  gs.foldl (fun a g => if g.number = n then read g.value else a) default

/-- A list field: the pieces are joined. -/
def joined {α : Type} (n : Nat) (read : Value → List α) (gs : List Field) : List α :=
  gs.flatMap fun g => if g.number = n then read g.value else []

def int32Value (v : Value) : Int32 := Int32.ofNat v.number

def boolValue (v : Value) : Bool := v.number != 0

def floatValue (v : Value) : BitVec 32 := BitVec.ofNat 32 v.number

/-- The messages that the app sends and the driver reads. -/
inductive AppMsg where
  | position (trackerId : Int32) (q : List (BitVec 64)) (pos : List (BitVec 32))
  | trackerAdded (trackerId role : Int32) (name : Bytes)
  | trackerStatus (trackerId status : Int32) (battery : BitVec 32)
  | wipSetting (openWip outputAsTreadmill useLeftHand joystickControl replaceHandPose : Bool)
  | wipInfo (x y : BitVec 32) (wipStatus : Int32)
deriving DecidableEq

namespace AppMsg

def kind : AppMsg → MsgKind
  | .position .. => .position
  | .trackerAdded .. => .trackerAdded
  | .trackerStatus .. => .trackerStatus
  | .wipSetting .. => .wipSetting
  | .wipInfo .. => .wipInfo

/-- The message as the driver holds it. Fields of other kinds have their defaults. -/
def toMsg : AppMsg → Msg
  | .position trackerId q pos =>
    { kind := .position, trackerId := trackerId, q := q, pos := pos }
  | .trackerAdded trackerId role name =>
    { kind := .trackerAdded, trackerId := trackerId, role := role, name := name }
  | .trackerStatus trackerId status battery =>
    { kind := .trackerStatus, trackerId := trackerId, status := status, battery := battery }
  | .wipSetting openWip outputAsTreadmill useLeftHand joystickControl replaceHandPose =>
    { kind := .wipSetting, openWip := openWip, outputAsTreadmill := outputAsTreadmill,
      useLeftHand := useLeftHand, joystickControl := joystickControl,
      replaceHandPose := replaceHandPose }
  | .wipInfo x y wipStatus => { kind := .wipInfo, wipX := x, wipY := y, wipStatus := wipStatus }

/-- The message that a sequence of fields spells. -/
def ofFields (field : MsgKind) (gs : List Field) : Option AppMsg :=
  match field with
  | .position => some (.position (lastWins 1 int32Value 0 gs)
      (joined 10 (Value.scalars 8) gs) (joined 11 (Value.scalars 4) gs))
  | .trackerAdded => some (.trackerAdded (lastWins 1 int32Value 0 gs)
      (lastWins 3 int32Value 0 gs) (lastWins 4 Value.body [] gs))
  | .trackerStatus => some (.trackerStatus (lastWins 1 int32Value 0 gs)
      (lastWins 2 int32Value 0 gs) (lastWins 3 floatValue 0#32 gs))
  | .wipSetting => some (.wipSetting (lastWins 1 boolValue false gs)
      (lastWins 2 boolValue false gs) (lastWins 3 boolValue false gs)
      (lastWins 4 boolValue false gs) (lastWins 5 boolValue false gs))
  | .wipInfo => some (.wipInfo (lastWins 2 floatValue 0#32 gs) (lastWins 3 floatValue 0#32 gs)
      (lastWins 4 int32Value 0 gs))
  | _ => none

end AppMsg

/-- A serialisation of `a` as one occurrence of its member, with unknown fields around it. -/
structure Serialization (a : AppMsg) where
  before : List Field
  tag : Bytes
  len : Bytes
  body : List Field
  after : List Field
  before_unknown : ∀ f ∈ before, Unknown f
  after_unknown : ∀ f ∈ after, Unknown f
  tag_isVarint : IsVarint tag
  tag_eq : (varintValue tag : Int) = 8 * a.kind.toInt + 2
  len_isVarint : IsVarint len
  len_eq : varintValue len = (encodeAll body).length
  conforms : ∀ g ∈ body, Conforms a.kind g
  means : AppMsg.ofFields a.kind body = some a

/-- A `wip_info` behind an unknown field, with its embedded position, a speed that is written twice,
another unknown field and a status of two bytes. -/
def wipInfoSerialization : Serialization (.wipInfo 0x3F800000#32 0#32 3) where
  before := [⟨[0x78], .varint [1] (by decide), by decide, by decide⟩]
  tag := [0x32]
  len := [17]
  body := [⟨[0x0a], .bytes [0] [] (by decide) (by decide), by decide, by decide⟩,
    ⟨[0x15], .fixed32 [0, 0, 0, 0x40] rfl, by decide, by decide⟩,
    ⟨[0x15], .fixed32 [0, 0, 0x80, 0x3f] rfl, by decide, by decide⟩,
    ⟨[0x48], .varint [7] (by decide), by decide, by decide⟩,
    ⟨[0x20], .varint [0x83, 0] (by decide), by decide, by decide⟩]
  after := []
  before_unknown := by
    simp only [List.forall_mem_cons]
    exact ⟨⟨by decide, .inr (by decide)⟩, by simp⟩
  after_unknown := by simp
  tag_isVarint := by decide
  tag_eq := by decide
  len_isVarint := by decide
  len_eq := by decide
  conforms := by
    have conforms_of {g : Field} (ty : FieldType) (hlt : g.number < 2 ^ 29)
        (hs : schema .wipInfo g.number = some ty) (ha : ty.Accepts g.value) :
        Conforms .wipInfo g :=
      ⟨hlt, fun ty' h => by cases hs.symm.trans h; exact ha⟩
    simp only [List.forall_mem_cons]
    exact ⟨conforms_of .message (by decide) rfl rfl, conforms_of .float (by decide) rfl rfl,
      conforms_of .float (by decide) rfl rfl, ⟨by decide, fun ty h => nomatch h⟩,
      conforms_of .enum (by decide) rfl rfl, by simp⟩
  means := rfl

def Serialization.encode {a : AppMsg} (s : Serialization a) : Bytes :=
  encodeAll s.before ++ (s.tag ++ (s.len ++ encodeAll s.body)) ++ encodeAll s.after

/-! ## One field -/

theorem tagField_eq {tag : Nat} (h : tag / 8 < 2 ^ 31) : tagField tag = (tag / 8 : Nat) := by
  have hs : tag >>> 3 = tag / 8 := Nat.shiftRight_eq_div_pow tag 3
  rw [tagField, hs, Int32.toInt_ofNat_of_lt h]

theorem fieldNumber_eq {g : Field} (h : g.number < 2 ^ 29) : fieldNumber g = g.number := by
  rw [fieldNumber, tagField_eq (by rw [Field.number] at h; omega)]
  rfl

theorem readable_of_conforms {field : MsgKind} {g : Field} (h : Conforms field g) :
    Readable field (fieldNumber g) g.value := by
  rw [fieldNumber_eq h.number_lt]
  rintro rfl
  constructor
  · intro hn
    have hn : g.number = 10 := by omega
    exact h.accepts .repeatedDouble (by rw [hn]; rfl)
  · intro hn
    have hn : g.number = 11 := by omega
    exact h.accepts .repeatedFloat (by rw [hn]; rfl)

theorem put_position {g : Field} (h : Conforms .position g) (m : Msg) :
    m.put .position (fieldNumber g) g.value
      = { m with
          trackerId := if g.number = 1 then int32Value g.value else m.trackerId
          q := m.q ++ if g.number = 10 then g.value.scalars 8 else []
          pos := m.pos ++ if g.number = 11 then g.value.scalars 4 else [] } := by
  rw [fieldNumber_eq h.number_lt]
  by_cases h1 : g.number = 1
  · have hw : g.value.wireType = 0 := h.accepts .int32 (by rw [h1]; rfl)
    simp [Msg.put, h1, hw, MsgKind.toInt, int32Value]
  by_cases h10 : g.number = 10
  · simp [Msg.put, h10]
  by_cases h11 : g.number = 11
  · simp [Msg.put, h11]
  have c1 : ¬(g.number : Int) = 1 := by omega
  have c10 : ¬(g.number : Int) = 10 := by omega
  have c11 : ¬(g.number : Int) = 11 := by omega
  simp [Msg.put, h1, h10, h11, c1, c10, c11]

theorem put_trackerAdded {g : Field} (h : Conforms .trackerAdded g) (m : Msg) :
    m.put .trackerAdded (fieldNumber g) g.value
      = { m with
          trackerId := if g.number = 1 then int32Value g.value else m.trackerId
          role := if g.number = 3 then int32Value g.value else m.role
          name := if g.number = 4 then g.value.body else m.name } := by
  rw [fieldNumber_eq h.number_lt]
  by_cases h1 : g.number = 1
  · have hw : g.value.wireType = 0 := h.accepts .int32 (by rw [h1]; rfl)
    simp [Msg.put, h1, hw, MsgKind.toInt, int32Value]
  by_cases h3 : g.number = 3
  · have hw : g.value.wireType = 0 := h.accepts .int32 (by rw [h3]; rfl)
    simp [Msg.put, h3, hw, int32Value]
  by_cases h4 : g.number = 4
  · have hw : g.value.wireType = 2 := h.accepts .string (by rw [h4]; rfl)
    simp [Msg.put, h4, hw]
  have c1 : ¬(g.number : Int) = 1 := by omega
  have c3 : ¬(g.number : Int) = 3 := by omega
  have c4 : ¬(g.number : Int) = 4 := by omega
  simp [Msg.put, h1, h3, h4, c1, c3, c4]

theorem put_trackerStatus {g : Field} (h : Conforms .trackerStatus g) (m : Msg) :
    m.put .trackerStatus (fieldNumber g) g.value
      = { m with
          trackerId := if g.number = 1 then int32Value g.value else m.trackerId
          status := if g.number = 2 then int32Value g.value else m.status
          battery := if g.number = 3 then floatValue g.value else m.battery } := by
  rw [fieldNumber_eq h.number_lt]
  by_cases h1 : g.number = 1
  · have hw : g.value.wireType = 0 := h.accepts .int32 (by rw [h1]; rfl)
    simp [Msg.put, h1, hw, MsgKind.toInt, int32Value]
  by_cases h2 : g.number = 2
  · have hw : g.value.wireType = 0 := h.accepts .enum (by rw [h2]; rfl)
    simp [Msg.put, h2, hw, int32Value]
  by_cases h3 : g.number = 3
  · have hw : g.value.wireType = 5 := h.accepts .float (by rw [h3]; rfl)
    simp [Msg.put, h3, hw, floatValue]
  have c1 : ¬(g.number : Int) = 1 := by omega
  have c2 : ¬(g.number : Int) = 2 := by omega
  have c3 : ¬(g.number : Int) = 3 := by omega
  simp [Msg.put, h1, h2, h3, c1, c2, c3]

theorem put_wipInfo {g : Field} (h : Conforms .wipInfo g) (m : Msg) :
    m.put .wipInfo (fieldNumber g) g.value
      = { m with
          wipX := if g.number = 2 then floatValue g.value else m.wipX
          wipY := if g.number = 3 then floatValue g.value else m.wipY
          wipStatus := if g.number = 4 then int32Value g.value else m.wipStatus } := by
  rw [fieldNumber_eq h.number_lt]
  have ht : ¬MsgKind.wipInfo.toInt ≤ MsgKind.trackerStatus.toInt := by decide
  by_cases h2 : g.number = 2
  · have hw : g.value.wireType = 5 := h.accepts .float (by rw [h2]; rfl)
    simp [Msg.put, h2, hw, floatValue]
  by_cases h3 : g.number = 3
  · have hw : g.value.wireType = 5 := h.accepts .float (by rw [h3]; rfl)
    simp [Msg.put, h3, hw, floatValue]
  by_cases h4 : g.number = 4
  · have hw : g.value.wireType = 0 := h.accepts .enum (by rw [h4]; rfl)
    simp [Msg.put, h4, hw, int32Value]
  have c2 : ¬(g.number : Int) = 2 := by omega
  have c3 : ¬(g.number : Int) = 3 := by omega
  have c4 : ¬(g.number : Int) = 4 := by omega
  -- the embedded position has number 1 as `tracker_id` does, but in a member that has none
  simp [Msg.put, h2, h3, h4, c2, c3, c4, ht]

theorem put_wipSetting {g : Field} (h : Conforms .wipSetting g) (m : Msg) :
    m.put .wipSetting (fieldNumber g) g.value
      = { m with
          openWip := if g.number = 1 then boolValue g.value else m.openWip
          outputAsTreadmill := if g.number = 2 then boolValue g.value else m.outputAsTreadmill
          useLeftHand := if g.number = 3 then boolValue g.value else m.useLeftHand
          joystickControl := if g.number = 4 then boolValue g.value else m.joystickControl
          replaceHandPose := if g.number = 5 then boolValue g.value else m.replaceHandPose } := by
  rw [fieldNumber_eq h.number_lt]
  have ht : ¬MsgKind.wipSetting.toInt ≤ MsgKind.trackerStatus.toInt := by decide
  by_cases hr : 1 ≤ g.number ∧ g.number ≤ 5
  · have hn : g.number = 1 ∨ g.number = 2 ∨ g.number = 3 ∨ g.number = 4 ∨ g.number = 5 := by
      omega
    have hw : g.value.wireType = 0 :=
      h.accepts .bool (by rcases hn with hn | hn | hn | hn | hn <;> rw [hn] <;> rfl)
    rcases hn with hn | hn | hn | hn | hn <;>
      simp [Msg.put, hn, hw, ht, setWipSetting, boolValue]
  · have hn : ∀ k, 1 ≤ k → k ≤ 5 → ¬g.number = k := by omega
    have hc : ¬(g.value.wireType = 0 ∧ 1 ≤ g.number ∧ g.number ≤ 5) := fun hc => hr hc.2
    simp [Msg.put, ht, hn, hc]

/-! ## A submessage -/

/-- The effect of the fields of a member, one after the other. -/
def putAll (field : MsgKind) (gs : List Field) (m : Msg) : Msg :=
  gs.foldl (fun m g => m.put field (fieldNumber g) g.value) m

theorem putAll_cons (field : MsgKind) (g : Field) (gs : List Field) (m : Msg) :
    putAll field (g :: gs) m = putAll field gs (m.put field (fieldNumber g) g.value) := rfl

theorem lastWins_cons {α : Type} (n : Nat) (read : Value → α) (d : α) (g : Field)
    (gs : List Field) :
    lastWins n read d (g :: gs)
      = lastWins n read (if g.number = n then read g.value else d) gs := rfl

theorem joined_cons {α : Type} (n : Nat) (read : Value → List α) (g : Field) (gs : List Field) :
    joined n read (g :: gs)
      = (if g.number = n then read g.value else []) ++ joined n read gs := rfl

theorem conforms_tail {field : MsgKind} {g : Field} {gs : List Field}
    (h : ∀ x ∈ g :: gs, Conforms field x) : ∀ x ∈ gs, Conforms field x :=
  fun x hx => h x (List.mem_cons_of_mem _ hx)

theorem putAll_position : ∀ {gs : List Field} (m : Msg), (∀ g ∈ gs, Conforms .position g) →
    putAll .position gs m
      = { m with
          trackerId := lastWins 1 int32Value m.trackerId gs
          q := m.q ++ joined 10 (Value.scalars 8) gs
          pos := m.pos ++ joined 11 (Value.scalars 4) gs } := by
  intro gs
  induction gs with
  | nil =>
    intro m _
    simp [putAll, lastWins, joined]
  | cons g gs ih =>
    intro m h
    rw [putAll_cons, put_position (h g List.mem_cons_self), ih _ (conforms_tail h)]
    simp [lastWins_cons, joined_cons]

theorem putAll_trackerAdded : ∀ {gs : List Field} (m : Msg),
    (∀ g ∈ gs, Conforms .trackerAdded g) →
    putAll .trackerAdded gs m
      = { m with
          trackerId := lastWins 1 int32Value m.trackerId gs
          role := lastWins 3 int32Value m.role gs
          name := lastWins 4 Value.body m.name gs } := by
  intro gs
  induction gs with
  | nil => exact fun _ _ => rfl
  | cons g gs ih =>
    intro m h
    rw [putAll_cons, put_trackerAdded (h g List.mem_cons_self), ih _ (conforms_tail h)]
    rfl

theorem putAll_trackerStatus : ∀ {gs : List Field} (m : Msg),
    (∀ g ∈ gs, Conforms .trackerStatus g) →
    putAll .trackerStatus gs m
      = { m with
          trackerId := lastWins 1 int32Value m.trackerId gs
          status := lastWins 2 int32Value m.status gs
          battery := lastWins 3 floatValue m.battery gs } := by
  intro gs
  induction gs with
  | nil => exact fun _ _ => rfl
  | cons g gs ih =>
    intro m h
    rw [putAll_cons, put_trackerStatus (h g List.mem_cons_self), ih _ (conforms_tail h)]
    rfl

theorem putAll_wipInfo : ∀ {gs : List Field} (m : Msg), (∀ g ∈ gs, Conforms .wipInfo g) →
    putAll .wipInfo gs m
      = { m with
          wipX := lastWins 2 floatValue m.wipX gs
          wipY := lastWins 3 floatValue m.wipY gs
          wipStatus := lastWins 4 int32Value m.wipStatus gs } := by
  intro gs
  induction gs with
  | nil => exact fun _ _ => rfl
  | cons g gs ih =>
    intro m h
    rw [putAll_cons, put_wipInfo (h g List.mem_cons_self), ih _ (conforms_tail h)]
    rfl

theorem putAll_wipSetting : ∀ {gs : List Field} (m : Msg),
    (∀ g ∈ gs, Conforms .wipSetting g) →
    putAll .wipSetting gs m
      = { m with
          openWip := lastWins 1 boolValue m.openWip gs
          outputAsTreadmill := lastWins 2 boolValue m.outputAsTreadmill gs
          useLeftHand := lastWins 3 boolValue m.useLeftHand gs
          joystickControl := lastWins 4 boolValue m.joystickControl gs
          replaceHandPose := lastWins 5 boolValue m.replaceHandPose gs } := by
  intro gs
  induction gs with
  | nil => exact fun _ _ => rfl
  | cons g gs ih =>
    intro m h
    rw [putAll_cons, put_wipSetting (h g List.mem_cons_self), ih _ (conforms_tail h)]
    rfl

/-- **The fields of a member are read to their meaning.** -/
theorem putAll_of_ofFields {field : MsgKind} {gs : List Field} {a : AppMsg}
    (h : ∀ g ∈ gs, Conforms field g) (ha : AppMsg.ofFields field gs = some a) :
    putAll field gs { kind := field } = a.toMsg := by
  cases field with
  | position =>
    cases ha
    rw [putAll_position _ h]
    rfl
  | trackerAdded =>
    cases ha
    rw [putAll_trackerAdded _ h]
    rfl
  | trackerStatus =>
    cases ha
    rw [putAll_trackerStatus _ h]
    rfl
  | wipInfo =>
    cases ha
    rw [putAll_wipInfo _ h]
    rfl
  | wipSetting =>
    cases ha
    rw [putAll_wipSetting _ h]
    rfl
  | none | universeChange | pathFailed | wipFuncStateChange => cases ha

/-! ## The message -/

/-- Conforming fields are items of the language of `decode`. -/
theorem exists_items_of_conforms {field : MsgKind} : ∀ {gs : List Field},
    (∀ g ∈ gs, Conforms field g) → ∃ its : List (Item field),
      encodeItems its = encodeAll gs ∧ ∀ m, its.foldl Item.put m = putAll field gs m := by
  intro gs
  induction gs with
  | nil => exact fun _ => ⟨[], rfl, fun _ => rfl⟩
  | cons g gs ih =>
    intro h
    obtain ⟨its, hits, hfold⟩ := ih (conforms_tail h)
    refine ⟨.ofField g (readable_of_conforms (h g List.mem_cons_self)) :: its, ?_, ?_⟩
    · rw [encodeItems_cons, encodeAll_cons, hits]
      rfl
    · intro m
      rw [List.foldl_cons, hfold, putAll_cons]
      rfl

theorem member?_of_unknown {f : Field} (h : Unknown f) : member? f = none := by
  unfold member? tagMember
  split
  · have hn : tagField (varintValue f.tag) = f.number := fieldNumber_eq h.number_lt
    rw [hn, MsgKind.ofField_eq_none]
    rcases h.not_member with h0 | h8
    · exact Or.inl (by rw [h0]; decide)
    · exact Or.inr (by show (8 : Int) < f.number; omega)
  · rfl

/-- Unknown fields are items of the top level without an effect. -/
theorem exists_topItems_of_unknown : ∀ {fs : List Field}, (∀ f ∈ fs, Unknown f) →
    ∃ ts : List TopItem, encodeTop ts = encodeAll fs ∧ ∀ m, ts.foldl TopItem.put m = m := by
  intro fs
  induction fs with
  | nil => exact fun _ => ⟨[], rfl, fun _ => rfl⟩
  | cons f fs ih =>
    intro h
    obtain ⟨ts, hts, hfold⟩ := ih fun x hx => h x (List.mem_cons_of_mem _ hx)
    refine ⟨.skipped f (member?_of_unknown (h f List.mem_cons_self)) :: ts, ?_, ?_⟩
    · rw [encodeTop_cons, encodeAll_cons, hts]
      rfl
    · intro m
      exact hfold m

theorem tagMember_of_tag_eq {tag : Nat} {field : MsgKind} (hk : field ≠ .none)
    (h : (tag : Int) = 8 * field.toInt + 2) : tagMember tag = some field := by
  have hbound : 1 ≤ field.toInt ∧ field.toInt ≤ 8 := by
    cases field <;> first | exact absurd rfl hk | decide
  have hw : tagWire tag = 2 := by rw [tagWire_eq]; omega
  have hf : tagField tag = field.toInt := by rw [tagField_eq (by omega)]; omega
  rw [tagMember, if_pos hw, hf]
  exact MsgKind.ofField_eq_some.mpr ⟨rfl, hk⟩

/-- **`decode` reads every serialisation of a message of the app to that message.** -/
theorem decode_serialization (a : AppMsg) (s : Serialization a) :
    decode s.encode {} = (true, a.toMsg) := by
  have hkind : a.kind ≠ .none := by cases a <;> nofun
  obtain ⟨its, hits, hput⟩ := exists_items_of_conforms s.conforms
  obtain ⟨before, hbefore, hskip⟩ := exists_topItems_of_unknown s.before_unknown
  obtain ⟨after, hafter, hskip'⟩ := exists_topItems_of_unknown s.after_unknown
  have hmember := tagMember_of_tag_eq hkind s.tag_eq
  have hwire : varintValue s.tag % 8 = 2 := by rw [← tagWire_eq, wireType_of_tagMember hmember]
  let member : TopItem := .member
    ⟨s.tag, .bytes s.len (encodeAll s.body) s.len_isVarint s.len_eq, s.tag_isVarint, hwire⟩
    a.kind its hmember hits.symm
  have hfold : (before ++ member :: after).foldl TopItem.put {} = a.toMsg := by
    rw [List.foldl_append, hskip, List.foldl_cons, hskip']
    show its.foldl Item.put { kind := a.kind } = a.toMsg
    rw [hput, putAll_of_ofFields s.conforms s.means]
  refine decode_eq_true_iff.mpr ⟨before ++ member :: after, ?_, ⟨member, by simp, rfl⟩, hfold.symm⟩
  rw [encodeTop_append, encodeTop_cons, hbefore, hafter, Serialization.encode]
  simp [member, TopItem.encode, TopItem.field, Field.encode, Value.encode]

theorem decode_serialization_wipInfo :
    decode [0x78, 1, 0x32, 17, 0x0a, 0, 0x15, 0, 0, 0, 0x40, 0x15, 0, 0, 0x80, 0x3f, 0x48, 7, 0x20,
      0x83, 0] {} = (true, { kind := .wipInfo, wipX := 0x3F800000#32, wipStatus := 3 }) :=
  decode_serialization (.wipInfo 0x3F800000#32 0#32 3) wipInfoSerialization

end Rebocap.Proto

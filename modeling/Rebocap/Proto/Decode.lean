import Rebocap.Proto.Reader

/-!
# `decode`

The decoder of `RebocapMsg`. It takes a message by reference, so it returns the message also
when it returns false.

Numbers stay bit patterns: `float` and `double` fields are copied from the input.
-/

namespace Rebocap.Proto

open Lib Lib.Wire

/-! ## The message -/

inductive MsgKind where
  | none
  | position
  | trackerAdded
  | trackerStatus
  | universeChange
  | pathFailed
  | wipInfo
  | wipSetting
  | wipFuncStateChange
deriving DecidableEq, Repr

namespace MsgKind

def toInt : MsgKind → Int
  | .none => 0
  | .position => 1
  | .trackerAdded => 2
  | .trackerStatus => 3
  | .universeChange => 4
  | .pathFailed => 5
  | .wipInfo => 6
  | .wipSetting => 7
  | .wipFuncStateChange => 8

/-- The member of the `oneof` with a field number, if it has one from `kPosition` to
`kWipFuncStateChange`. -/
def ofField : Int → Option MsgKind
  | 1 => some .position
  | 2 => some .trackerAdded
  | 3 => some .trackerStatus
  | 4 => some .universeChange
  | 5 => some .pathFailed
  | 6 => some .wipInfo
  | 7 => some .wipSetting
  | 8 => some .wipFuncStateChange
  | _ => Option.none

theorem ofField_eq_some {n : Int} {k : MsgKind} :
    ofField n = some k ↔ k.toInt = n ∧ k ≠ .none := by
  constructor
  · intro h
    unfold ofField at h
    split at h
    all_goals cases h
    all_goals exact ⟨rfl, by decide⟩
  · rintro ⟨rfl, hk⟩
    cases k <;> first | rfl | exact absurd rfl hk

/-- `ofField` has a member exactly for the numbers that `decode` does not skip. -/
theorem ofField_eq_none {n : Int} :
    ofField n = Option.none ↔ n < position.toInt ∨ wipFuncStateChange.toInt < n := by
  cases h : ofField n with
  | none =>
    simp only [true_iff, toInt]
    by_contra hn
    have hn : n = 1 ∨ n = 2 ∨ n = 3 ∨ n = 4 ∨ n = 5 ∨ n = 6 ∨ n = 7 ∨ n = 8 := by omega
    rcases hn with rfl | rfl | rfl | rfl | rfl | rfl | rfl | rfl <;> cases h
  | some k =>
    obtain ⟨rfl, hk⟩ := ofField_eq_some.mp h
    cases k <;> simp [toInt] at hk ⊢

end MsgKind

inductive Status where
  | disconnected
  | ok
  | busy
  | error
  | occluded
deriving DecidableEq, Repr

def Status.toInt32 : Status → Int32
  | .disconnected => 0
  | .ok => 1
  | .busy => 2
  | .error => 3
  | .occluded => 4

inductive WipStatus where
  | stopWalking
  | startWalking
  | stopped
  | walking
  | exist
deriving DecidableEq, Repr

def WipStatus.toInt32 : WipStatus → Int32
  | .stopWalking => 0
  | .startWalking => 1
  | .stopped => 2
  | .walking => 3
  | .exist => 4

structure Msg where
  kind : MsgKind := .none
  trackerId : Int32 := 0
  -- position
  q : List (BitVec 64) := []
  pos : List (BitVec 32) := []
  -- tracker_added
  role : Int32 := 0
  name : Bytes := []
  -- tracker_status
  status : Int32 := 0
  battery : BitVec 32 := 0#32
  -- wip_setting
  openWip : Bool := false
  outputAsTreadmill : Bool := false
  useLeftHand : Bool := false
  joystickControl : Bool := false
  replaceHandPose : Bool := false
  -- wip_info
  wipX : BitVec 32 := 0#32
  wipY : BitVec 32 := 0#32
  wipStatus : Int32 := 0
deriving DecidableEq, Repr

/-! ## Repeated scalars -/

/-- The loop over a packed list. -/
def repeatedLoop (n : Nat) [NeZero n] (s : Reader) (out : List (BitVec (8 * n))) :
    Reader × List (BitVec (8 * n)) :=
  if _h : s.done then (s, out)
  else repeatedLoop n (s.fixed n).2 (out ++ [(s.fixed n).1])
termination_by s.remaining
decreasing_by exact Reader.remaining_fixed_lt (Nat.pos_of_neZero n) (by simpa using _h)

def repeated (n : Nat) [NeZero n] (r : Reader) (wire : Nat) (out : List (BitVec (8 * n))) :
    Reader × List (BitVec (8 * n)) :=
  if wire = 2 then
    let (s, r) := r.sub
    let (s, out) := repeatedLoop n s out
    ({ r with ok := r.ok && s.ok }, out)
  else
    let (v, r) := r.fixed n
    (r, out ++ [v])

/-! ## Fields -/

/-- `static_cast<int>(tag >> 3)` -/
def tagField (tag : Nat) : Int := (Int32.ofNat (tag >>> 3)).toInt

/-- `static_cast<int>(tag & 7)` -/
def tagWire (tag : Nat) : Nat := tag &&& 7

/-- The `wip_setting` switch with field number `f`. -/
def setWipSetting (f : Int) (on : Bool) (m : Msg) : Msg :=
  if f = 1 then { m with openWip := on }
  else if f = 2 then { m with outputAsTreadmill := on }
  else if f = 3 then { m with useLeftHand := on }
  else if f = 4 then { m with joystickControl := on }
  else { m with replaceHandPose := on }

/-- What the loop over a submessage does behind the tag of a field. -/
def decodePayload (field : MsgKind) (f : Int) (w : Nat) (r : Reader) (m : Msg) : Reader × Msg :=
  if f = 1 ∧ w = 0 ∧ field.toInt ≤ MsgKind.trackerStatus.toInt then
    (r.varint.2, { m with trackerId := Int32.ofNat r.varint.1 })
  else if field = .position ∧ f = 10 then
    ((repeated 8 r w m.q).1, { m with q := (repeated 8 r w m.q).2 })
  else if field = .position ∧ f = 11 then
    ((repeated 4 r w m.pos).1, { m with pos := (repeated 4 r w m.pos).2 })
  else if field = .trackerAdded ∧ f = 3 ∧ w = 0 then
    (r.varint.2, { m with role := Int32.ofNat r.varint.1 })
  else if field = .trackerAdded ∧ f = 4 ∧ w = 2 then
    (r.sub.2, { m with name := r.sub.1.slice })
  else if field = .trackerStatus ∧ f = 2 ∧ w = 0 then
    (r.varint.2, { m with status := Int32.ofNat r.varint.1 })
  else if field = .trackerStatus ∧ f = 3 ∧ w = 5 then
    ((r.fixed 4).2, { m with battery := (r.fixed 4).1 })
  else if field = .wipSetting ∧ w = 0 ∧ 1 ≤ f ∧ f ≤ 5 then
    (r.varint.2, setWipSetting f (r.varint.1 != 0) m)
  else if field = .wipInfo ∧ f = 2 ∧ w = 5 then
    ((r.fixed 4).2, { m with wipX := (r.fixed 4).1 })
  else if field = .wipInfo ∧ f = 3 ∧ w = 5 then
    ((r.fixed 4).2, { m with wipY := (r.fixed 4).1 })
  else if field = .wipInfo ∧ f = 4 ∧ w = 0 then
    (r.varint.2, { m with wipStatus := Int32.ofNat r.varint.1 })
  else
    (r.skip w, m)

/-- One field of a submessage. -/
def decodeField (field : MsgKind) (r : Reader) (m : Msg) : Reader × Msg :=
  let (t, r) := r.varint
  decodePayload field (tagField t) (tagWire t) r m

/-! ### Termination -/

theorem advances_set_ok {a r : Reader} (b : Bool) (h : Reader.Advances a r) :
    Reader.Advances a { r with ok := r.ok && b } where
  data_eq := h.data_eq
  fin_eq := h.fin_eq
  le := h.le
  le_fin := h.le_fin
  ok := fun hok => h.ok (by simp only [Bool.and_eq_true] at hok; exact hok.1)

theorem advances_repeated (n : Nat) [NeZero n] (r : Reader) (wire : Nat)
    (out : List (BitVec (8 * n))) : Reader.Advances r (repeated n r wire out).1 := by
  unfold repeated
  split
  · exact advances_set_ok _ (Reader.advances_sub r)
  · exact Reader.advances_fixed n r

theorem advances_ite {c : Prop} [Decidable c] {r : Reader} {a b : Reader × Msg}
    (ha : Reader.Advances r a.1) (hb : Reader.Advances r b.1) :
    Reader.Advances r (if c then a else b).1 :=
  iteInduction (motive := fun x : Reader × Msg => Reader.Advances r x.1) (fun _ => ha) fun _ => hb

theorem advances_decodePayload (field : MsgKind) (f : Int) (w : Nat) (r : Reader) (m : Msg) :
    Reader.Advances r (decodePayload field f w r m).1 := by
  have hvarint := Reader.advances_varint r
  have hfixed := Reader.advances_fixed 4 r
  have hsub := Reader.advances_sub r
  unfold decodePayload
  -- one line for each branch of the chain
  refine advances_ite hvarint ?_
  refine advances_ite (advances_repeated 8 r w m.q) ?_
  refine advances_ite (advances_repeated 4 r w m.pos) ?_
  refine advances_ite hvarint ?_
  refine advances_ite hsub ?_
  refine advances_ite hvarint ?_
  refine advances_ite hfixed ?_
  refine advances_ite hvarint ?_
  refine advances_ite hfixed ?_
  refine advances_ite hfixed ?_
  refine advances_ite hvarint ?_
  exact Reader.advances_skip r w

theorem advances_decodeField (field : MsgKind) (r : Reader) (m : Msg) :
    Reader.Advances r.varint.2 (decodeField field r m).1 :=
  advances_decodePayload field _ _ _ m

/-! ## Messages -/

/-- The loop over the fields of a submessage. -/
def decodeBody (field : MsgKind) (r : Reader) (m : Msg) : Reader × Msg :=
  if _h : r.done then (r, m)
  else decodeBody field (decodeField field r m).1 (decodeField field r m).2
termination_by r.remaining
decreasing_by
  exact Nat.lt_of_le_of_lt (advances_decodeField field r m).remaining_le
    (Reader.remaining_varint_lt (by simpa using _h))

/-- The member of the `oneof` that a tag starts. Fields without one are skipped. -/
def tagMember (tag : Nat) : Option MsgKind :=
  if tagWire tag = 2 then MsgKind.ofField (tagField tag) else none

/-- One field of the top level. A member of the `oneof` starts a new message. -/
def decodeTopField (top : Reader) (m : Msg) : Reader × Msg :=
  let (tag, top) := top.varint
  match tagMember tag with
  | none => (top.skip (tagWire tag), m)
  | some field =>
    let (r, top) := top.sub
    let (r, m) := decodeBody field r { kind := field }
    ({ top with ok := top.ok && r.ok }, m)

theorem advances_decodeTopField (top : Reader) (m : Msg) :
    Reader.Advances top.varint.2 (decodeTopField top m).1 := by
  unfold decodeTopField
  dsimp only
  split
  · exact Reader.advances_skip _ _
  · exact advances_set_ok _ (Reader.advances_sub _)

/-- The loop over the top level. -/
def decodeTop (top : Reader) (m : Msg) : Reader × Msg :=
  if _h : top.done then (top, m)
  else decodeTop (decodeTopField top m).1 (decodeTopField top m).2
termination_by top.remaining
decreasing_by
  exact Nat.lt_of_le_of_lt (advances_decodeTopField top m).remaining_le
    (Reader.remaining_varint_lt (by simpa using _h))

def decode (data : Bytes) (m : Msg) : Bool × Msg :=
  let (top, m) := decodeTop { data := data, p := 0, fin := data.length } m
  (top.ok && m.kind != .none, m)

/-- `decode` into a fresh message: what it reads, if it returns true. -/
def decodeFresh (data : Bytes) : Option Msg :=
  if (decode data {}).1 then some (decode data {}).2 else none

end Rebocap.Proto

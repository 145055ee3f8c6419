import Rebocap.Lib.Scalar
import Rebocap.Proto.Decode

/-!
# The encoders

The payloads that the driver sends. Numbers are bit patterns, as in `decode`.

* `payloadKind_wrap` — a payload tells its member by its first byte
-/

namespace Rebocap.Proto

open Lib

/-! ## Fields -/

def putVarint (v : Nat) : Bytes :=
  if _h : v < 0x80 then [UInt8.ofNat v] else UInt8.ofNat (v ||| 0x80) :: putVarint (v >>> 7)
termination_by v
decreasing_by
  rw [Nat.shiftRight_eq_div_pow]
  omega

def putFixed {n : Nat} (v : BitVec (8 * n)) : Bytes := leBytes n v.toNat

def wrap (field : MsgKind) (inner : Bytes) : Bytes :=
  putVarint (field.toInt.toNat <<< 3 ||| 2) ++ putVarint inner.length ++ inner

/-! ## Messages -/

def encodeStatus (id status : Int32) : Bytes :=
  wrap .trackerStatus
    ((if id ≠ 0 then 0x08 :: putVarint id.toUInt32.toNat else []) ++
      (if status ≠ 0 then 0x10 :: putVarint status.toUInt32.toNat else []))

def encodePosition (id : Int32) (q : Fin 4 → BitVec 64) (pos : Fin 3 → BitVec 32) : Bytes :=
  wrap .position
    ((if id ≠ 0 then 0x08 :: putVarint id.toUInt32.toNat else []) ++
      [0x52, 32] ++ (List.finRange 4).flatMap (fun i => putFixed (n := 8) (q i)) ++
      [0x5a, 12] ++ (List.finRange 3).flatMap (fun i => putFixed (n := 4) (pos i)))

def encodeUniverse (yaw : BitVec 32) (pos : Fin 3 → BitVec 32) : Bytes :=
  wrap .universeChange
    ((if (Binary32.mk yaw == 0) = false then 0x0d :: putFixed (n := 4) yaw else []) ++
      [0x12, 12] ++ (List.finRange 3).flatMap (fun i => putFixed (n := 4) (pos i)))

def encodePathFailed (failed : Int32) : Bytes :=
  wrap .pathFailed (if failed ≠ 0 then 0x08 :: putVarint failed.toUInt32.toNat else [])

/-! ## The kind of a payload -/

/-- The member that a payload starts with. -/
def payloadKind (payload : Bytes) : Option MsgKind :=
  payload.head?.bind fun tag => tagMember tag.toNat

/-- **A payload tells its member by its first byte.** -/
theorem payloadKind_wrap {field : MsgKind} (inner : Bytes) (h : field ≠ .none) :
    payloadKind (wrap field inner) = some field := by
  have htag : ∃ tag rest, putVarint (field.toInt.toNat <<< 3 ||| 2) = tag :: rest ∧
      tagMember tag.toNat = some field := by
    cases field with
    | none => exact absurd rfl h
    | position => exact ⟨0x0a, [], by decide +kernel, by decide⟩
    | trackerAdded => exact ⟨0x12, [], by decide +kernel, by decide⟩
    | trackerStatus => exact ⟨0x1a, [], by decide +kernel, by decide⟩
    | universeChange => exact ⟨0x22, [], by decide +kernel, by decide⟩
    | pathFailed => exact ⟨0x2a, [], by decide +kernel, by decide⟩
    | wipInfo => exact ⟨0x32, [], by decide +kernel, by decide⟩
    | wipSetting => exact ⟨0x3a, [], by decide +kernel, by decide⟩
    | wipFuncStateChange => exact ⟨0x42, [], by decide +kernel, by decide⟩
  obtain ⟨tag, rest, htag, hmember⟩ := htag
  rw [wrap, htag]
  exact hmember

@[simp] theorem payloadKind_encodeStatus (id status : Int32) :
    payloadKind (encodeStatus id status) = some .trackerStatus := payloadKind_wrap _ nofun

@[simp] theorem payloadKind_encodePosition (id : Int32) (q : Fin 4 → BitVec 64)
    (pos : Fin 3 → BitVec 32) : payloadKind (encodePosition id q pos) = some .position :=
  payloadKind_wrap _ nofun

@[simp] theorem payloadKind_encodeUniverse (yaw : BitVec 32) (pos : Fin 3 → BitVec 32) :
    payloadKind (encodeUniverse yaw pos) = some .universeChange := payloadKind_wrap _ nofun

@[simp] theorem payloadKind_encodePathFailed (failed : Int32) :
    payloadKind (encodePathFailed failed) = some .pathFailed := payloadKind_wrap _ nofun

end Rebocap.Proto

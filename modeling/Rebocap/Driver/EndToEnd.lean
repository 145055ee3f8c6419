import Rebocap.Bridge.BothWays
import Rebocap.Driver.Delivery
import Rebocap.Driver.Sends
import Rebocap.Lib.RatScalar

/-!
# From the driver to the app and back

All that lies between: `send`, the socket, the bridge and its pipe one way, the pipe, the bridge,
the socket, `read_loop` and `RunFrame` the other.

* `app_reads` — what the app reads on a connection
* `handles_app` — what the driver handles of it
-/

namespace Rebocap.Driver.Provider

open Lib Proto Net FloatConv FloatBits Bridge

variable {F D δ ι : Type} [FloatOrder F] [Arith F] [FloatOrder D] [Arith D] [FloatConv F D]
  [FloatBits F 32] [FloatBits D 64]

/-! ## To the app -/

/-- The app is told something on a connection: the frame calls `send` while this is the connection
of `fd_`, and `send` returns true. -/
def Tells (g : Nat) (io : Io F D ι) (s : Provider F D δ) : Prop :=
  s.client.fd = some g ∧ ∃ payload ∈ payloadOf io s, (s.client.send payload io.outcome).1 = true

instance (g : Nat) (io : Io F D ι) (s : Provider F D δ) : Decidable (Tells g io s) :=
  inferInstanceAs (Decidable (_ ∧ _))

/-- A headset that is tracked, and a kernel that takes every write. -/
def tracked : Io ℚ ℚ Unit where
  vr := ()
  hmd := ⟨true, true, fun i j => if i.val = j.val then 1 else 0⟩
  chaperone := ⟨none, fun _ => none⟩
  outcome := .sent 100

/-- The app's messages as `read_loop` reads what the bridge has passed on. -/
theorem messagesOf_of_pipeToSock {passes : List Pass} {s : Bytes}
    (h : s <+: (pipeToSock passes).flatten) :
    messagesOf s <+: (payloads passes).filterMap decodeFresh ∧
      ¬Client.Oversize (splitFrames Client.maxFrame s).2 := by
  have hlimit : 4092 ≤ Client.maxFrame := by decide
  obtain ⟨qs, part, hread, hqs, hpart⟩ := splitFrames_of_pipeToSock hlimit h
  rw [messagesOf, hread]
  exact ⟨hqs.filterMap decodeFresh, fun ho => Nat.not_lt.mpr (hpart ho.1) ho.2⟩

/-- **What the driver handles of a connection is the first of what the app has written to the
pipe**, in order, in every run, and `read_loop` never ends a connection because of a bad length.
Where nothing fails and all has arrived, nothing is lost. -/
theorem handles_app (h : Handlers D δ ι) (devices : δ) (fallback : Bool) (path : String)
    (es : List (Event F D δ ι)) (passes : Nat → List Pass)
    (harrives : ∀ g, (after h devices fallback path es).client.stream g
      <+: (pipeToSock (passes g)).flatten) :
    let s := after h devices fallback path es
    (∀ g, onConn g (s.handled.map Prod.snd) <+: (payloads (passes g)).filterMap decodeFresh) ∧
      (s.client.thread = .scanning → ¬Client.Oversize s.client.unread) ∧
      ∀ g, s.client.stream g = (pipeToSock (passes g)).flatten →
        (∀ pass ∈ passes g, pass.Works) → s.client.thread ≠ .scanning →
        s.delivered g = (payloads (passes g)).filterMap decodeFresh := by
  have hd := delivering_after (F := F) h devices fallback path es
  generalize after h devices fallback path es = s at harrives hd
  refine ⟨fun g => ?_, fun ht ho => ?_, fun g hall hworks ht => ?_⟩
  · have hexact := hd.exact g
    have hhandled : onConn g (s.handled.map Prod.snd) <+: messagesOf (s.client.stream g) := by
      rw [← hexact, delivered, onConn_append, onConn_append, List.append_assoc, List.append_assoc]
      exact List.prefix_append _ _
    exact hhandled.trans (messagesOf_of_pipeToSock (harrives g)).1
  · have hrest := hd.consistent.unread_of_scanning ht
    have hnone : ¬HasFrame Client.maxFrame s.client.unread := fun hf => Nat.not_lt.mpr hf.2.1 ho.2
    rw [splitFrames_of_not hnone] at hrest
    refine (messagesOf_of_pipeToSock (harrives s.client.generation)).2 ?_
    rw [← hrest]
    exact ho
  · have hexact := hd.exact g
    rw [Client.pending_of_ne ht, List.append_nil, hall, pipeToSock_eq hworks] at hexact
    have hsmall : ∀ p ∈ payloads (passes g), p.length ≤ Client.maxFrame ∧ p.length < 2 ^ 32 := by
      intro p hp
      have := length_le_of_mem_payloads hp
      unfold Client.maxFrame
      omega
    have hread := splitFrames_flatMap [] hsmall
    have hnone : ¬HasFrame Client.maxFrame [] := fun h => absurd h.1 (by decide)
    rw [List.append_nil, splitFrames_of_not hnone, List.append_nil] at hread
    rw [hexact, messagesOf, hread]

/-- A message whose header lies, then a status. -/
def lyingFirst : List Pass := [⟨some [9, 0, 0, 0, 1], 0⟩, ⟨some [4, 0, 0, 0, 26, 2, 16, 1], 8⟩]

/-- The status arrives, and is handled in the next frame. -/
def statusArrives : List (Event ℚ ℚ Unit Unit) :=
  [.net .connect, .net .publish, .net (.recv [4, 0, 0, 0, 26, 2, 16, 1]), .net .scan, .net .scan,
    .frame (seconds 5)] ++ List.replicate 4 (.step tracked)

theorem handles_app_lyingFirst :
    onConn 1 ((after .idle () true "" statusArrives).handled.map Prod.snd)
        <+: (payloads lyingFirst).filterMap decodeFresh ∧
      (onConn 1 ((after .idle () true "" statusArrives).handled.map Prod.snd)).length = 1 := by
  have hstream : ∀ g, (after .idle () true "" statusArrives).client.stream g
      <+: (pipeToSock lyingFirst).flatten := by
    intro g
    rcases Nat.lt_trichotomy g 1 with hg | rfl | hg
    · obtain rfl := Nat.lt_one_iff.mp hg
      decide +kernel
    · decide +kernel
    · have hgen : (after .idle () true "" statusArrives).client.generation = 1 := by
        decide +kernel
      have hd := delivering_after .idle () true "" statusArrives
      rw [hd.consistent.stream_of_lt g (by rw [hgen]; exact hg)]
      exact List.nil_prefix
  exact ⟨(handles_app .idle () true "" statusArrives (fun _ => lyingFirst) hstream).1 1,
    by decide +kernel⟩

end Rebocap.Driver.Provider

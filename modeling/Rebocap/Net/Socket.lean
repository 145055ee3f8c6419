import Rebocap.Lib.Framing

/-!
# `BridgeClient::send` on one socket

The driver's end of a connection. The kernel decides what a non-blocking write does: it takes the
whole frame, nothing, a part of it, or it fails. After `shutdown` it takes nothing.

* `sendAll_written` — the bytes written are the accepted frames, and behind them at most a part
  of one more frame, which is the last thing that is ever written
-/

namespace Rebocap.Net

open Lib

/-! ## Writing -/

/-- What the kernel does with a write. -/
inductive SendResult where
  | sent (n : Nat)
  | wouldBlock
  | failed
deriving DecidableEq, Repr

/-- The driver's end of a connection: the bytes written to it, and whether it was shut down. -/
structure Socket where
  written : Bytes := []
  shut : Bool := false
deriving DecidableEq, Repr

namespace Socket

/-- `::send`. A write to a socket that was shut down fails. -/
def write (s : Socket) (frame : Bytes) (o : SendResult) : SendResult × Socket :=
  if s.shut then (.failed, s)
  else
    match o with
    | .sent n => (.sent (frame.take n).length, { s with written := s.written ++ frame.take n })
    | .wouldBlock => (.wouldBlock, s)
    | .failed => (.failed, s)

/-- `BridgeClient::send` once it has the descriptor. -/
def send (s : Socket) (payload : Bytes) (o : SendResult) : Bool × Socket :=
  let frame := encodeFrame payload
  let (r, s) := s.write frame o
  if r = .sent frame.length then (true, s)
  else if r = .wouldBlock then (false, s)
  -- A partial write breaks the framing, so close the connection.
  else (false, { s with shut := true })

/-- What one call can do: the whole frame is written, nothing is, or the framing breaks and the
socket is shut down. -/
theorem send_cases (s : Socket) (payload : Bytes) (o : SendResult) :
    (s.shut = false ∧
        s.send payload o = (true, { s with written := s.written ++ encodeFrame payload })) ∨
      s.send payload o = (false, s) ∨
      ∃ part, part <+: encodeFrame payload ∧ part ≠ encodeFrame payload ∧
        (s.shut = true → part = []) ∧
        s.send payload o = (false, { written := s.written ++ part, shut := true }) := by
  cases hshut : s.shut with
  | true =>
    refine Or.inr (Or.inr ⟨[], List.nil_prefix, (encodeFrame_ne_nil payload).symm,
      fun _ => rfl, ?_⟩)
    simp [send, write, hshut]
  | false =>
    cases o with
    | wouldBlock => exact Or.inr (Or.inl (by simp [send, write, hshut]))
    | failed =>
      refine Or.inr (Or.inr ⟨[], List.nil_prefix, (encodeFrame_ne_nil payload).symm,
        fun _ => rfl, ?_⟩)
      simp [send, write, hshut]
    | sent n =>
      by_cases hn : (encodeFrame payload).length ≤ n
      · refine Or.inl ⟨rfl, ?_⟩
        simp [send, write, hshut, List.take_of_length_le hn]
      · have hlen : ((encodeFrame payload).take n).length ≠ (encodeFrame payload).length := by
          rw [List.length_take]
          omega
        refine Or.inr (Or.inr ⟨(encodeFrame payload).take n, List.take_prefix _ _, ?_, ?_, ?_⟩)
        · exact fun h => hlen (congrArg List.length h)
        · nofun
        · simp only [send, write, hshut, Bool.false_eq_true, if_false]
          rw [if_neg (by simpa using hlen), if_neg (by simp)]

/-! ## A sequence of calls -/

/-- The calls on one connection: the payloads of those that returned true, and the socket. -/
def sendAll : List (Bytes × SendResult) → Socket → List Bytes × Socket
  | [], s => ([], s)
  | (payload, o) :: calls, s =>
    let (ok, s) := s.send payload o
    let (accepted, s) := sendAll calls s
    (if ok then payload :: accepted else accepted, s)

theorem sendAll_cons (payload : Bytes) (o : SendResult) (calls : List (Bytes × SendResult))
    (s : Socket) :
    sendAll ((payload, o) :: calls) s
      = (if (s.send payload o).1 then payload :: (sendAll calls (s.send payload o).2).1
          else (sendAll calls (s.send payload o).2).1,
        (sendAll calls (s.send payload o).2).2) := rfl

/-- A socket that was shut down accepts nothing and stays as it is. -/
theorem sendAll_of_shut : ∀ (calls : List (Bytes × SendResult)) {s : Socket}, s.shut = true →
    sendAll calls s = ([], s) := by
  intro calls
  induction calls with
  | nil => exact fun _ => rfl
  | cons call calls ih =>
    obtain ⟨payload, o⟩ := call
    intro s h
    have hsend : s.send payload o = (false, s) := by
      rcases send_cases s payload o with ⟨hs, -⟩ | hs | ⟨part, -, -, hpart, hs⟩
      · rw [h] at hs
        cases hs
      · exact hs
      · rw [hs, hpart h, List.append_nil, ← h]
    rw [sendAll_cons, hsend, ih h]
    rfl

/-- **What is written are the accepted frames and then at most a part of a frame that was
tried.** -/
theorem sendAll_written : ∀ (calls : List (Bytes × SendResult)) {s : Socket}, s.shut = false →
    ∃ part, (sendAll calls s).2.written
        = s.written ++ (sendAll calls s).1.flatMap encodeFrame ++ part ∧
      (part = [] ∨
        ∃ call ∈ calls, part <+: encodeFrame call.1 ∧ part ≠ encodeFrame call.1) := by
  intro calls
  induction calls with
  | nil => exact fun _ => ⟨[], by simp [sendAll], Or.inl rfl⟩
  | cons call calls ih =>
    obtain ⟨payload, o⟩ := call
    intro s h
    rcases send_cases s payload o with ⟨-, hs⟩ | hs | ⟨part, hpre, hne, -, hs⟩
    · obtain ⟨part, hw, hpart⟩ :=
        ih (s := { s with written := s.written ++ encodeFrame payload }) h
      refine ⟨part, ?_, hpart.imp_right fun ⟨call, hmem, hp⟩ =>
        ⟨call, List.mem_cons_of_mem _ hmem, hp⟩⟩
      rw [sendAll_cons, hs, hw]
      simp
    · obtain ⟨part, hw, hpart⟩ := ih h
      refine ⟨part, ?_, hpart.imp_right fun ⟨call, hmem, hp⟩ =>
        ⟨call, List.mem_cons_of_mem _ hmem, hp⟩⟩
      rw [sendAll_cons, hs, hw]
      rfl
    · refine ⟨part, ?_, Or.inr ⟨(payload, o), List.mem_cons_self, hpre, hne⟩⟩
      rw [sendAll_cons, hs, sendAll_of_shut calls rfl]
      simp

/-- Only payloads that were passed in are accepted. -/
theorem mem_calls_of_mem_sendAll : ∀ {calls : List (Bytes × SendResult)} {s : Socket} {p : Bytes},
    p ∈ (sendAll calls s).1 → ∃ call ∈ calls, call.1 = p := by
  intro calls
  induction calls with
  | nil => exact fun h => absurd h List.not_mem_nil
  | cons call calls ih =>
    obtain ⟨payload, o⟩ := call
    intro s p h
    rw [sendAll_cons] at h
    split at h
    · rcases List.mem_cons.mp h with rfl | h
      · exact ⟨(p, o), List.mem_cons_self, rfl⟩
      · obtain ⟨call, hmem, hp⟩ := ih h
        exact ⟨call, List.mem_cons_of_mem _ hmem, hp⟩
    · obtain ⟨call, hmem, hp⟩ := ih h
      exact ⟨call, List.mem_cons_of_mem _ hmem, hp⟩

end Socket

end Rebocap.Net

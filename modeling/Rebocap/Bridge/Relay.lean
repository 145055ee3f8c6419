import Rebocap.Net.Socket

/-!
# `sock_to_pipe`

The bridge's thread from the socket to the pipe. What TCP delivers is a list of pieces: a call of
`recv` takes at most one piece, and less of it if the buffer is smaller. An empty piece, or no
piece, is a `recv` that returns 0 or an error.

* `relay_prefix` — what reaches the pipe are frames that the driver sent, whole and in order
-/

namespace Rebocap.Bridge

open Lib Rebocap.Net

/-! ## The two loops -/

def maxPayload : Nat := 2044

/-- `recv(sock, buf, len, 0)`: the bytes received and the pieces that are left. -/
def recv (len : Nat) : List Bytes → Bytes × List Bytes
  | [] => ([], [])
  | p :: ps => (p.take len, if p.length ≤ len then ps else p.drop len :: ps)

/-- `recv_all`: `len` bytes, or nothing if `recv` returned 0 or an error before. -/
def recvAll (len : Nat) (pieces : List Bytes) : Option (Bytes × List Bytes) :=
  if _hlen : len = 0 then some ([], pieces)
  else
    let r := recv len pieces
    if _h : r.1 = [] then none
    else
      match recvAll (len - r.1.length) r.2 with
      | none => none
      | some (buf, pieces) => some (r.1 ++ buf, pieces)
termination_by len
decreasing_by
  have hpos : 0 < (recv len pieces).1.length := List.length_pos_of_ne_nil _h
  omega

/-- `sock_to_pipe`: the buffers passed to `WriteFile`. Each element of `pipe` is one pass of the
loop, and says if its write succeeds; the list ends where `closing` is seen. -/
def sockToPipe : List Bool → List Bytes → List Bytes
  | [], _ => []
  | ok :: pipe, pieces =>
    match recvAll 4 pieces with
    | none => []
    | some (head, pieces) =>
      let len := leValue head
      if len > maxPayload then []
      else
        match recvAll len pieces with
        | none => []
        | some (payload, pieces) =>
          (head ++ payload) :: if ok then sockToPipe pipe pieces else []

/-! ## What they read -/

theorem recv_flatten (len : Nat) (pieces : List Bytes) :
    (recv len pieces).1 ++ (recv len pieces).2.flatten = pieces.flatten := by
  cases pieces with
  | nil => rfl
  | cons p ps =>
    by_cases hp : p.length ≤ len
    · simp [recv, hp, List.take_of_length_le hp]
    · rw [recv, if_neg hp, List.flatten_cons, List.flatten_cons, ← List.append_assoc,
        List.take_append_drop]

theorem length_recv_le (len : Nat) (pieces : List Bytes) : (recv len pieces).1.length ≤ len := by
  cases pieces with
  | nil => simp [recv]
  | cons p ps => simp only [recv, List.length_take]; omega

/-- `recv_all` reads the next `len` bytes of the stream, however it is cut. -/
theorem recvAll_eq_some {len : Nat} {pieces rest : List Bytes} {buf : Bytes}
    (h : recvAll len pieces = some (buf, rest)) :
    pieces.flatten = buf ++ rest.flatten ∧ buf.length = len := by
  fun_induction recvAll len pieces generalizing buf rest with
  | case1 =>
    cases h
    exact ⟨rfl, rfl⟩
  | case2 => cases h
  | case3 => cases h
  | case4 len pieces hlen r hr tail ps hrec =>
    rename_i ih
    cases h
    obtain ⟨hflat, hlength⟩ := ih hrec
    have hle : r.1.length ≤ len := length_recv_le len pieces
    constructor
    · rw [List.append_assoc, ← hflat]
      exact (recv_flatten len pieces).symm
    · rw [List.length_append, hlength]
      omega

/-- The buffers are the frames of the stream, up to where the session ends. -/
theorem prefix_sockToPipe : ∀ (pipe : List Bool) (pieces : List Bytes),
    sockToPipe pipe pieces <+: (splitFrames maxPayload pieces.flatten).1.map encodeFrame := by
  intro pipe
  induction pipe with
  | nil =>
    intro pieces
    exact List.nil_prefix
  | cons ok pipe ih =>
    intro pieces
    unfold sockToPipe
    split
    next => exact List.nil_prefix
    next head rest hhead =>
      obtain ⟨hflat, h4⟩ := recvAll_eq_some hhead
      dsimp only
      split
      next => exact List.nil_prefix
      next hlen =>
        split
        next => exact List.nil_prefix
        next payload rest' hpayload =>
          obtain ⟨hflat', hlength⟩ := recvAll_eq_some hpayload
          have hframe := encodeFrame_of_header h4 hlength
          rw [hflat, hflat', ← List.append_assoc, ← hframe,
            splitFrames_encodeFrame _ (by omega) (by unfold maxPayload at hlen; omega)]
          refine (List.prefix_cons_inj _).mpr ?_
          split
          · exact ih rest'
          · exact List.nil_prefix

/-! ## Both ends -/

/-- A payload that the protocol allows. -/
abbrev Payload := { p : Bytes // p.length ≤ maxPayload }

/-- The calls of `BridgeClient::send` on one connection, each with what the kernel does. -/
abbrev Calls := List (Payload × SendResult)

/-- The payloads whose send returned true, and the socket. -/
def Calls.run (calls : Calls) : List Bytes × Socket :=
  Socket.sendAll (calls.map fun c => (c.1.val, c.2)) {}

theorem length_le_of_mem_run {calls : Calls} {p : Bytes} (h : p ∈ calls.run.1) :
    p.length ≤ maxPayload := by
  obtain ⟨call, hmem, rfl⟩ := Socket.mem_calls_of_mem_sendAll h
  obtain ⟨c, -, rfl⟩ := List.mem_map.mp hmem
  exact c.1.property

/-- A reader of what was written finds the accepted frames and nothing behind them. -/
theorem splitFrames_written (calls : Calls) :
    (splitFrames maxPayload calls.run.2.written).1 = calls.run.1 := by
  obtain ⟨part, hw, hpart⟩ :=
    Socket.sendAll_written (calls.map fun c => (c.1.val, c.2)) (s := {}) rfl
  have hnone : ¬HasFrame maxPayload part := by
    rcases hpart with rfl | ⟨call, hmem, hpre, hne⟩
    · exact fun h => absurd h.1 (by decide)
    · obtain ⟨c, -, rfl⟩ := List.mem_map.mp hmem
      have hlen : c.1.val.length ≤ maxPayload := c.1.property
      exact not_hasFrame_of_part hpre hne (Nat.lt_of_le_of_lt hlen (by decide))
  have hsplit : splitFrames maxPayload (calls.run.1.flatMap encodeFrame ++ part) = _ :=
      splitFrames_flatMap part fun p hp => by
    have := length_le_of_mem_run hp
    unfold maxPayload at this ⊢
    omega
  rw [Calls.run, hw, List.nil_append]
  rw [Calls.run] at hsplit
  rw [hsplit, splitFrames_of_not hnone, List.append_nil]

/-- **What the bridge writes to the pipe is a prefix of the frames whose send returned true**, for
every outcome of every socket write and every way in which a prefix of the bytes written arrives. -/
theorem relay_prefix (calls : Calls) (pieces : List Bytes) (pipe : List Bool)
    (h : pieces.flatten <+: calls.run.2.written) :
    sockToPipe pipe pieces <+: calls.run.1.map encodeFrame := by
  have hframes : (splitFrames maxPayload pieces.flatten).1
      <+: (splitFrames maxPayload calls.run.2.written).1 := splitFrames_prefix h
  rw [splitFrames_written] at hframes
  exact (prefix_sockToPipe pipe pieces).trans (hframes.map encodeFrame)

/-- A frame in two pieces, behind it a part of a frame whose write was cut off. -/
theorem relay_prefix_cut_off :
    sockToPipe [true, true] [[1, 0], [0, 0, 7, 1, 0]] = [encodeFrame [7]] ∧
      sockToPipe [true, true] [[1, 0], [0, 0, 7, 1, 0]]
        <+: (Calls.run [(⟨[7], by decide⟩, .sent 5), (⟨[8], by decide⟩, .sent 2)]).1.map
          encodeFrame :=
  ⟨by decide +kernel, relay_prefix _ _ _ (by decide)⟩

end Rebocap.Bridge

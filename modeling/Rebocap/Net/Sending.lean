import Rebocap.Net.Client

/-!
# What `send` does across reconnects

While a descriptor is in `fd_`, it belongs to the connection of the current generation, because a
new connection is made only after the old one was closed. So what `send` accepts is accepted on
the connection whose generation a reader of `generation()` would get at that moment.

* `Attached.acceptedHere_send` — a payload is accepted on the current connection or not at all
-/

namespace Rebocap.Net.Client

open Lib

/-- `fd_` is set from `fd_ = fd` to the end of the connection, and belongs to it. -/
def Attached (c : Client) : Prop :=
  c.fd = if c.thread = .connecting ∨ c.thread = .bumped then none else some c.generation

theorem attached_init : Attached {} := rfl

/-- What was accepted on the current connection. -/
def acceptedHere (c : Client) : List Bytes := c.accepted c.generation

theorem Attached.step {c : Client} (e : Event) (h : c.Attached) : (step e c).Attached := by
  unfold Attached at h
  rcases step_cases e c with hs | ⟨ht, hs⟩ | ⟨ht, hs⟩ | ⟨ht, chunk, -, hs⟩ | ⟨ht, hs⟩ | ⟨ht, hs⟩ |
    ⟨ht, hs⟩ <;> rw [hs]
  · exact h
  · simpa [Attached, ht] using h
  · simp [Attached]
  · simpa [Attached, ht] using h
  · rcases scan_cases c with ⟨-, hscan⟩ | ⟨-, -, hscan⟩ | ⟨-, -, hscan⟩ <;> rw [hscan]
    all_goals simpa [Attached, ht] using h
  · simpa [Attached, ht] using h
  · simp [Attached]

/-- The network thread accepts nothing. -/
theorem step_accepted (e : Event) (c : Client) : (step e c).accepted = c.accepted := by
  rcases step_cases e c with hs | ⟨-, hs⟩ | ⟨-, hs⟩ | ⟨-, chunk, -, hs⟩ | ⟨-, hs⟩ | ⟨-, hs⟩ |
    ⟨-, hs⟩ <;> rw [hs]
  rcases scan_cases c with ⟨-, hscan⟩ | ⟨-, -, hscan⟩ | ⟨-, -, hscan⟩ <;> rw [hscan]

@[simp] theorem send_generation (c : Client) (payload : Bytes) (o : SendResult) :
    (c.send payload o).2.generation = c.generation := by
  obtain ⟨socket, accepted, hs⟩ := c.send_snd payload o
  rw [hs]

theorem Attached.of_send {c : Client} (payload : Bytes) (o : SendResult) (h : c.Attached) :
    (c.send payload o).2.Attached := by
  obtain ⟨socket, accepted, hs⟩ := c.send_snd payload o
  rw [hs]
  exact h

/-- **A payload is accepted on the current connection or not at all.** -/
theorem Attached.acceptedHere_send {c : Client} (payload : Bytes) (o : SendResult)
    (h : c.Attached) :
    (c.send payload o).2.acceptedHere
      = c.acceptedHere ++ if (c.send payload o).1 then [payload] else [] := by
  unfold Attached at h
  unfold send acceptedHere
  cases hfd : c.fd with
  | none => simp
  | some g =>
    have hg : g = c.generation := by
      rw [hfd] at h
      split at h
      · cases h
      · exact Option.some.inj h
    subst hg
    dsimp only
    split
    · rw [update_same]
    · rw [List.append_nil]

theorem update_self {α : Type} (f : Nat → α) (g : Nat) : update f g (f g) = f := by
  funext i
  by_cases hi : i = g
  · rw [hi, update_same]
  · rw [update_of_ne _ _ hi]

/-- No other connection is touched. -/
theorem Attached.accepted_send {c : Client} (payload : Bytes) (o : SendResult) (h : c.Attached) :
    (c.send payload o).2.accepted = update c.accepted c.generation
      (c.acceptedHere ++ if (c.send payload o).1 then [payload] else []) := by
  have hsame : update c.accepted c.generation (c.acceptedHere ++ []) = c.accepted := by
    rw [List.append_nil]
    exact update_self c.accepted c.generation
  unfold Attached at h
  unfold send
  cases hfd : c.fd with
  | none => exact hsame.symm
  | some g =>
    have hg : g = c.generation := by
      rw [hfd] at h
      split at h
      · cases h
      · exact Option.some.inj h
    subst hg
    dsimp only
    split
    · rfl
    · exact hsame.symm

/-- The kernel takes the whole frame: there is a descriptor, its socket was not shut down, and the
write is not cut short. -/
def Takes (c : Client) (payload : Bytes) (o : SendResult) : Prop :=
  c.fd.isSome = true ∧ c.socket.shut = false ∧
    ∃ n, o = .sent n ∧ (encodeFrame payload).length ≤ n

theorem send_fst_iff {c : Client} {payload : Bytes} {o : SendResult} :
    (c.send payload o).1 = true ↔ c.Takes payload o := by
  unfold send Takes
  cases hfd : c.fd with
  | none => simp
  | some g =>
    dsimp only
    cases hshut : c.socket.shut with
    | true => simp [Socket.send, Socket.write, hshut]
    | false =>
      cases o with
      | wouldBlock => simp [Socket.send, Socket.write, hshut]
      | failed => simp [Socket.send, Socket.write, hshut]
      | sent n =>
        by_cases hn : 4 + payload.length ≤ n
        · simp [Socket.send, Socket.write, hshut, hn]
        · simp [Socket.send, Socket.write, hshut, hn]

end Rebocap.Net.Client

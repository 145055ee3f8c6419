import Rebocap.Driver.Frame
import Rebocap.Lib.RatScalar
import Rebocap.Net.Sending

/-!
# Resynchronisation after a reconnect

`RunFrame` keeps in flags what it has sent on the connection whose generation it has read. Every
send can be dropped, and the connection can be replaced between any two accesses to the client.

* `resynced` — when `generation_` is current and all flags are set, the app has the headset's
  status and, after it, the universe of the driver
-/

namespace Rebocap.Driver

open Lib Proto Net FloatConv FloatBits

variable {F D δ ι : Type}

/-! ## The last message of a kind -/

/-- `payload` was accepted, and nothing of the kinds `kinds` after it. -/
def LastAccepted (kinds : List MsgKind) (accepted : List Bytes) (payload : Bytes) : Prop :=
  ∃ before after, accepted = before ++ payload :: after ∧
    ∀ p ∈ after, ∀ k ∈ kinds, payloadKind p ≠ some k

theorem lastAccepted_append_self (kinds : List MsgKind) (accepted : List Bytes) (payload : Bytes) :
    LastAccepted kinds (accepted ++ [payload]) payload :=
  ⟨accepted, [], rfl, by simp⟩

/-- A message of another kind does not matter, whether it is accepted or not. -/
theorem LastAccepted.append {kinds : List MsgKind} {accepted more : List Bytes} {payload : Bytes}
    (h : LastAccepted kinds accepted payload)
    (hmore : ∀ p ∈ more, ∀ k ∈ kinds, payloadKind p ≠ some k) :
    LastAccepted kinds (accepted ++ more) payload := by
  obtain ⟨before, after, rfl, hafter⟩ := h
  refine ⟨before, after ++ more, by simp, ?_⟩
  intro p hp
  rcases List.mem_append.mp hp with hp | hp
  · exact hafter p hp
  · exact hmore p hp

/-- Two last messages of which the second is also the last of the first one's kind stand in this
order. -/
theorem LastAccepted.in_order {kinds : List MsgKind} {k : MsgKind} {accepted : List Bytes}
    {first second : Bytes} (h1 : LastAccepted [k] accepted first)
    (h2 : LastAccepted (k :: kinds) accepted second) (hfirst : payloadKind first = some k)
    (hsecond : payloadKind second ≠ some k) :
    ∃ before between after, accepted = before ++ first :: between ++ second :: after ∧
      (∀ p ∈ between ++ after, payloadKind p ≠ some k) ∧
      ∀ p ∈ after, ∀ k' ∈ kinds, payloadKind p ≠ some k' := by
  obtain ⟨before, after, rfl, hafter⟩ := h1
  obtain ⟨before', after', heq, hafter'⟩ := h2
  have hk : ∀ p ∈ after', payloadKind p ≠ some k := fun p hp => hafter' p hp k List.mem_cons_self
  rcases List.append_eq_append_iff.mp heq with ⟨mid, rfl, hmid⟩ | ⟨mid, rfl, hmid⟩
  · cases mid with
    | nil =>
      rw [List.nil_append] at hmid
      obtain ⟨rfl, -⟩ := List.cons.inj hmid
      exact absurd hfirst hsecond
    | cons p between =>
      obtain ⟨rfl, rfl⟩ := List.cons.inj hmid
      refine ⟨before, between, after', by simp, ?_,
        fun p hp k' hk' => hafter' p hp k' (List.mem_cons_of_mem _ hk')⟩
      intro p hp
      refine hafter p ?_ k (List.mem_singleton_self k)
      rcases List.mem_append.mp hp with hp | hp
      · exact List.mem_append_left _ hp
      · exact List.mem_append_right _ (List.mem_cons_of_mem _ hp)
  · -- the first message would lie behind the second one
    cases mid with
    | nil =>
      rw [List.nil_append] at hmid
      obtain ⟨rfl, -⟩ := List.cons.inj hmid
      exact absurd hfirst hsecond
    | cons p mid =>
      obtain ⟨rfl, rfl⟩ := List.cons.inj hmid
      exact absurd hfirst (hk first (by simp))

/-! ## What the flags say -/

namespace Provider

variable [FloatConv F D] [FloatBits F 32]

/-- What the flags of the handshake say about the current connection. -/
structure Synced (s : Provider F D δ) : Prop where
  attached : s.client.Attached
  generation_le : s.generation ≤ s.client.generation
  status : s.generation = s.client.generation → s.statusSent = true →
    LastAccepted [.trackerStatus] s.client.acceptedHere (statusPayload s.lastHmdOk)
  /-- The universe follows the status, but for the moment between the two sends. -/
  hello : s.generation = s.client.generation → s.haveUniverse = true → s.helloSent = true →
    (∃ hmd, s.pc = .sendUniverse hmd true) ∨
      LastAccepted [.trackerStatus, .universeChange] s.client.acceptedHere
        (universePayload F s.universe_)

theorem synced_init [Zero D] (devices : δ) (fallback : Bool) (path : String) :
    (init devices fallback path : Provider F D δ).Synced where
  attached := Client.attached_init
  generation_le := Nat.le_refl _
  status := by simp [init]
  hello := by simp [init]

/-- The client after a step that accepts neither a status nor a universe. -/
def QuietClient (c c' : Client) : Prop :=
  c'.Attached ∧ c'.generation = c.generation ∧
    ∃ more, c'.acceptedHere = c.acceptedHere ++ more ∧
      ∀ p ∈ more, ∀ k ∈ [MsgKind.trackerStatus, .universeChange], payloadKind p ≠ some k

theorem quietClient_self {c : Client} (h : c.Attached) : QuietClient c c :=
  ⟨h, rfl, [], (List.append_nil _).symm, by simp⟩

theorem quietClient_send {c : Client} {payload : Bytes} {kind : MsgKind} (o : SendResult)
    (h : c.Attached) (hkind : payloadKind payload = some kind)
    (hne : kind ≠ .trackerStatus ∧ kind ≠ .universeChange) :
    QuietClient c (c.send payload o).2 := by
  refine ⟨h.of_send payload o, by simp, _, h.acceptedHere_send payload o, ?_⟩
  intro p hp k hk
  split at hp
  · rw [List.mem_singleton.mp hp, hkind]
    rintro ⟨⟩
    simp [hne] at hk
  · cases hp

theorem quietClient_tried {c c' : Client} (h : c.Attached) (hc : TriedPathFailed c c') :
    QuietClient c c' := by
  rcases hc with rfl | ⟨failed, o, rfl⟩
  · exact quietClient_self h
  · exact quietClient_send o h (payloadKind_encodePathFailed failed) (by decide)

/-- A step that leaves the flags alone. -/
structure SameFlags (s s' : Provider F D δ) : Prop where
  client : QuietClient s.client s'.client
  generation : s'.generation = s.generation
  statusSent : s'.statusSent = s.statusSent
  lastHmdOk : s'.lastHmdOk = s.lastHmdOk
  hello : s'.helloSent = false ∨ s'.helloSent = s.helloSent ∧ s'.haveUniverse = s.haveUniverse ∧
    s'.universe_ = s.universe_

theorem Synced.of_same {s s' : Provider F D δ} (hs : s.Synced) (h : SameFlags s s')
    (hpc : ∀ hmd, s.pc ≠ .sendUniverse hmd true) : s'.Synced := by
  obtain ⟨hattached, hgen, more, hmore, hkinds⟩ := h.client
  exact {
    attached := hattached
    generation_le := by
      rw [h.generation, hgen]
      exact hs.generation_le
    status := by
      intro hcur hsent
      rw [h.generation, hgen] at hcur
      rw [h.statusSent] at hsent
      rw [hmore, h.lastHmdOk]
      refine (hs.status hcur hsent).append fun p hp k hk => hkinds p hp k ?_
      rw [List.mem_singleton.mp hk]
      exact List.mem_cons_self
    hello := by
      intro hcur hhave hsent
      rcases h.hello with hfalse | ⟨hsame, hhave', huniverse⟩
      · rw [hfalse] at hsent
        cases hsent
      · rw [h.generation, hgen] at hcur
        rw [hhave'] at hhave
        rw [hsame] at hsent
        rw [hmore, huniverse]
        rcases hs.hello hcur hhave hsent with ⟨hmd, hmid⟩ | hlast
        · exact absurd hmid (hpc hmd)
        · exact Or.inr (hlast.append hkinds) }

/-! ## One step -/

theorem synced_readGeneration {s : Provider F D δ} (hs : s.Synced) :
    Synced ({ s with
      generation := s.client.generation
      statusSent := false
      helloSent := false
      pc := .drain } : Provider F D δ) where
  attached := hs.attached
  generation_le := Nat.le_refl _
  status := by simp
  hello := by simp

theorem synced_status {s : Provider F D δ} (hmd : HmdPose F) (hmdOk : Bool) (o : SendResult)
    (hs : s.Synced) :
    Synced { s with
      client := (s.client.send (statusPayload hmdOk) o).2
      statusSent := (s.client.send (statusPayload hmdOk) o).1
      lastHmdOk := hmdOk
      pc := .sendUniverse hmd true } where
  attached := hs.attached.of_send _ o
  generation_le := by simpa using hs.generation_le
  status := by
    intro _ hsent
    show LastAccepted _ (s.client.send (statusPayload hmdOk) o).2.acceptedHere _
    rw [hs.attached.acceptedHere_send, if_pos hsent]
    exact lastAccepted_append_self _ _ _
  hello := fun _ _ _ => Or.inl ⟨hmd, rfl⟩

theorem synced_universe {s : Provider F D δ} (hmd : HmdPose F) (o : SendResult) (hs : s.Synced) :
    Synced { s with
      client := (s.client.send (universePayload F s.universe_) o).2
      helloSent := (s.client.send (universePayload F s.universe_) o).1
      pc := .sendHmdPose hmd } where
  attached := hs.attached.of_send _ o
  generation_le := by simpa using hs.generation_le
  status := by
    intro hcur hsent
    show LastAccepted _ (s.client.send (universePayload F s.universe_) o).2.acceptedHere _
    rw [hs.attached.acceptedHere_send]
    refine (hs.status (by simpa using hcur) hsent).append ?_
    intro p hp k hk
    split at hp
    · rw [List.mem_singleton.mp hp, List.mem_singleton.mp hk, payloadKind_universePayload]
      simp
    · cases hp
  hello := by
    intro _ _ hsent
    refine Or.inr ?_
    show LastAccepted _ (s.client.send (universePayload F s.universe_) o).2.acceptedHere _
    rw [hs.attached.acceptedHere_send, if_pos hsent]
    exact lastAccepted_append_self _ _ _

theorem synced_universeSkipped {s : Provider F D δ} (hmd : HmdPose F) (due : Bool)
    (hpc : s.pc = .sendUniverse hmd due)
    (h : s.haveUniverse = false ∨ due = false ∧ s.helloSent = true) (hs : s.Synced) :
    Synced { s with pc := .sendHmdPose hmd } where
  attached := hs.attached
  generation_le := hs.generation_le
  status := hs.status
  hello := by
    intro hcur hhave hsent
    rcases h with hnone | ⟨rfl, -⟩
    · rw [show s.haveUniverse = true from hhave] at hnone
      cases hnone
    · rcases hs.hello hcur hhave hsent with ⟨hmd', hmid⟩ | hlast
      · rw [hpc] at hmid
        cases hmid
      · exact Or.inr hlast

/-- A step of the network thread: a new connection is one whose generation was not read yet. -/
theorem synced_net {s : Provider F D δ} (e : Client.Event) (hs : s.Synced) :
    Synced { s with client := Client.step e s.client } := by
  by_cases hgen : (Client.step e s.client).generation = s.client.generation
  · have haccepted : (Client.step e s.client).acceptedHere = s.client.acceptedHere := by
      rw [Client.acceptedHere, Client.step_accepted, hgen]
      rfl
    exact {
      attached := hs.attached.step e
      generation_le := by
        rw [hgen]
        exact hs.generation_le
      status := by
        rw [hgen, haccepted]
        exact hs.status
      hello := by
        rw [hgen, haccepted]
        exact hs.hello }
  · obtain ⟨rfl, hthread⟩ := Client.step_generation hgen
    have hnew : (Client.step .connect s.client).generation = s.client.generation + 1 := by
      rw [Client.step, if_pos hthread]
    have hle := hs.generation_le
    have hne : s.generation ≠ (Client.step .connect s.client).generation := by omega
    exact {
      attached := hs.attached.step .connect
      generation_le := by
        rw [hnew]
        exact Nat.le_succ_of_le hle
      status := fun hcur => absurd hcur hne
      hello := fun hcur => absurd hcur hne }

variable [FloatOrder F] [Arith F] [FloatOrder D] [Arith D] [FloatBits D 64]

theorem synced_frameStep {io : Io F D ι} {s s' : Provider F D δ} (h : FrameStep io s s')
    (hs : s.Synced) : s'.Synced := by
  have hquiet := quietClient_self hs.attached
  cases h with
  | idle => exact hs
  | readGeneration hpc => exact synced_readGeneration hs
  | status hmd hmdOk hpc => exact synced_status hmd hmdOk io.outcome hs
  | universeSent hmd due hpc => exact synced_universe hmd io.outcome hs
  | universeSkipped hmd due hpc h => exact synced_universeSkipped hmd due hpc h hs
  | universeFound id found hpc =>
    exact hs.of_same ⟨hquiet, rfl, rfl, rfl, Or.inl rfl⟩ (by simp [hpc])
  | universeNotFound id c hpc _ _ _ hc =>
    exact hs.of_same ⟨quietClient_tried hs.attached hc, rfl, rfl, rfl, Or.inr ⟨rfl, rfl, rfl⟩⟩
      (by simp [hpc])
  | universeFallback id c hpc _ _ _ hc =>
    exact hs.of_same ⟨quietClient_tried hs.attached hc, rfl, rfl, rfl, Or.inl rfl⟩ (by simp [hpc])
  | pose hmd hpc =>
    exact hs.of_same ⟨quietClient_send io.outcome hs.attached (payloadKind_posePayload _ _)
      (by decide), rfl, rfl, rfl, Or.inr ⟨rfl, rfl, rfl⟩⟩ (by simp [hpc])
  | offline t d hpc | stale hpc | current hpc | drain hpc | message m d hpc
  | messagesEnd t d hpc | walk d hpc | universeKept t hpc | statusKept hmd hpc
  | poseSkipped hmd hpc =>
    exact hs.of_same ⟨hquiet, rfl, rfl, rfl, Or.inr ⟨rfl, rfl, rfl⟩⟩ (by simp [hpc])

/-- **One step keeps what the flags say true.** -/
theorem synced_step (h : Handlers D δ ι) (e : Event F D δ ι) (s : Provider F D δ)
    (hs : s.Synced) : (step h e s).Synced := by
  cases e with
  | net e => exact synced_net e hs
  | frame now =>
    show (s.beginFrame now).Synced
    have hquiet := quietClient_self hs.attached
    rcases beginFrame_cases now s with hb | ⟨hpc, -, hb⟩ | ⟨hpc, -, hb⟩ <;> rw [hb]
    · exact hs
    · exact hs.of_same ⟨hquiet, rfl, rfl, rfl, Or.inr ⟨rfl, rfl, rfl⟩⟩ (by simp [hpc])
    · exact hs.of_same ⟨hquiet, rfl, rfl, rfl, Or.inr ⟨rfl, rfl, rfl⟩⟩ (by simp [hpc])
  | step io => exact synced_frameStep (frameStep_cases h io s) hs
  | outside f => exact ⟨hs.attached, hs.generation_le, hs.status, hs.hello⟩

/-! ## Every run -/

/-- **Whenever a frame ends with a current `generation_` and all flags set**, the last status that
was accepted on the connection is that of `last_hmd_ok_`, the last universe is `universe_`, and
the universe was accepted after the status. -/
theorem resynced (h : Handlers D δ ι) (devices : δ) (fallback : Bool) (path : String)
    (es : List (Event F D δ ι)) :
    let s := after h devices fallback path es
    s.pc = .idle → s.generation = s.client.generation →
    s.statusSent = true → s.haveUniverse = true → s.helloSent = true →
    ∃ before between after,
      s.client.accepted s.generation
        = before ++ statusPayload s.lastHmdOk :: between ++ universePayload F s.universe_ :: after ∧
      (∀ p ∈ between ++ after, payloadKind p ≠ some .trackerStatus) ∧
      ∀ p ∈ after, payloadKind p ≠ some .universeChange := by
  intro s hidle hcur hstatus hhave hhello
  have hs : s.Synced := run_invariant (synced_step h) es (synced_init devices fallback path)
  have hlast := (hs.hello hcur hhave hhello).resolve_left fun ⟨hmd, hmid⟩ => by
    rw [hidle] at hmid
    cases hmid
  obtain ⟨before, between, after, heq, hnone, hnone'⟩ :=
    (hs.status hcur hstatus).in_order hlast (payloadKind_statusPayload _) (by simp)
  refine ⟨before, between, after, ?_, hnone, fun p hp => hnone' p hp _ (List.mem_singleton_self _)⟩
  rw [hcur]
  exact heq

/-- What a frame reads where the headset is tracked, its universe is found and every write goes
through. -/
def trackedHeadset : Io ℚ ℚ Unit where
  vr := ()
  hmd := ⟨true, true, fun i j => if i.val = j.val then 1 else 0⟩
  chaperone := ⟨some 7, fun id => some ⟨id, 1, 0, 2, 0⟩⟩
  outcome := .sent 100

/-- A connection and one frame. -/
def firstFrame : List (Event ℚ ℚ Unit Unit) :=
  [.net .connect, .net .publish, .frame (seconds 5)] ++ List.replicate 9 (.step trackedHeadset)

theorem resynced_firstFrame :
    let s := after .idle () true "" firstFrame
    ∃ before between after,
      s.client.accepted s.generation
        = before ++ statusPayload s.lastHmdOk :: between ++ universePayload ℚ s.universe_ :: after ∧
      (∀ p ∈ between ++ after, payloadKind p ≠ some .trackerStatus) ∧
      ∀ p ∈ after, payloadKind p ≠ some .universeChange :=
  resynced .idle () true "" firstFrame rfl rfl (by decide +kernel) rfl (by decide +kernel)

end Provider

end Rebocap.Driver

import Rebocap.Driver.Resync

/-!
# The handshake of a connection

The app is to get a `tracker_status` before anything else. A frame sends up to four messages, and
each can be dropped, and the connection can be replaced before each.

* `HandshakeSession.first_iff` — the runs in which every connection starts with a status
* `HandshakeSession.not_first` — a status is dropped, and the position after it is not
-/

namespace Rebocap.Driver

open Lib Proto Net FloatConv FloatBits Provider

variable {F D δ ι : Type}

/-! ## The first message of a connection -/

/-- The first message that was accepted on each connection is a `tracker_status`. -/
def StatusFirst (c : Client) : Prop :=
  ∀ g p, (c.accepted g).head? = some p → payloadKind p = some .trackerStatus

/-- A message behind another one is not the first. -/
theorem head?_append_singleton {l : List Bytes} {p q : Bytes} :
    (l ++ [p]).head? = some q ↔ l.head? = some q ∨ l = [] ∧ p = q := by
  cases l with
  | nil => simp
  | cons a l => simp

theorem statusFirst_send {c : Client} {payload : Bytes} {o : SendResult} (ha : c.Attached)
    (h : StatusFirst c) :
    StatusFirst (c.send payload o).2 ↔
      (c.Takes payload o → c.acceptedHere ≠ [] ∨ payloadKind payload = some .trackerStatus) := by
  rw [← Client.send_fst_iff]
  unfold StatusFirst
  rw [ha.accepted_send]
  cases hok : (c.send payload o).1 with
  | false =>
    have hsame : update c.accepted c.generation c.acceptedHere = c.accepted :=
      Client.update_self c.accepted c.generation
    simp only [Bool.false_eq_true, if_false, List.append_nil, hsame, false_implies, iff_true]
    exact h
  | true =>
    simp only [if_true, true_implies]
    constructor
    · intro h'
      by_contra hn
      obtain ⟨hempty, hkind⟩ := not_or.mp hn
      refine hkind (h' c.generation payload ?_)
      rw [update_same, head?_append_singleton]
      exact Or.inr ⟨not_not.mp hempty, rfl⟩
    · intro hor g p hp
      by_cases hg : g = c.generation
      · rw [hg, update_same, head?_append_singleton] at hp
        rcases hp with hp | ⟨hempty, rfl⟩
        · exact h c.generation p hp
        · exact hor.resolve_left fun hne => hne hempty
      · rw [update_of_ne _ _ hg] at hp
        exact h g p hp

/-! ## Sessions -/

structure HandshakeSession (F D δ : Type) where
  driver : Provider F D δ
  /-- The connection was not replaced since the frame's status was sent, or, where none is due,
  since its generation check. -/
  same : Bool

namespace HandshakeSession

def init [Zero D] (devices : δ) (universeFallback : Bool) (defaultChaperone : String) :
    HandshakeSession F D δ where
  driver := .init devices universeFallback defaultChaperone
  same := true

def statusDue (hmd : HmdPose F) (s : Provider F D δ) : Bool :=
  !s.statusSent || (hmd.poseIsValid && hmd.deviceIsConnected) != s.lastHmdOk

/-- `UpdateUniverse` sends a `path_failed`. -/
def ReportsFailure (io : Io F D ι) (s : Provider F D δ) : Prop :=
  ∃ id, s.Searches io id ∧ io.chaperone.lookup id = none ∧ s.usingFallback = false ∧
    s.universeFailures % 30 = 0

def pathFailedPayload (s : Provider F D δ) : Bytes :=
  encodePathFailed (if s.defaultChaperone.isEmpty then 1 else 2)

theorem client_updateUniverse [Zero D] (io : Io F D ι) (s : Provider F D δ) :
    (¬ReportsFailure io s ∧ (s.updateUniverse io).client = s.client) ∨
      ReportsFailure io s ∧
        (s.updateUniverse io).client = (s.client.send (pathFailedPayload s) io.outcome).2 := by
  have hexit := universeExit io s
  have hnone : (∀ id, ¬(s.Searches io id ∧ io.chaperone.lookup id = none ∧
      s.usingFallback = false)) → ¬ReportsFailure io s :=
    fun h ⟨id, hsearch, hlookup, hfallback, _⟩ => h id ⟨hsearch, hlookup, hfallback⟩
  have hfailed : ∀ {id}, s.Searches io id → io.chaperone.lookup id = none →
      s.usingFallback = false →
      (¬ReportsFailure io s ∧ s.afterFailure io.outcome = s.client) ∨
        ReportsFailure io s ∧
          s.afterFailure io.outcome = (s.client.send (pathFailedPayload s) io.outcome).2 := by
    intro id hsearch hlookup hfallback
    unfold afterFailure
    split
    next hdue => exact Or.inr ⟨⟨id, hsearch, hlookup, hfallback, hdue⟩, rfl⟩
    next hdue => exact Or.inl ⟨fun ⟨_, _, _, _, hdue'⟩ => hdue hdue', rfl⟩
  generalize s.updateUniverse io = s' at hexit
  cases hexit with
  | unread hid =>
    refine Or.inl ⟨hnone fun id h => ?_, rfl⟩
    cases hid.symm.trans h.1.current
  | known id hid hknown =>
    refine Or.inl ⟨hnone fun id' h => ?_, rfl⟩
    cases hid.symm.trans h.1.current
    exact h.1.unknown hknown
  | limited id hid hnew hlimit => exact Or.inl ⟨hnone fun id' h => h.1.due hlimit, rfl⟩
  | found id u hsearch hfound =>
    refine Or.inl ⟨hnone fun id' h => ?_, rfl⟩
    cases hsearch.current.symm.trans h.1.current
    cases hfound.symm.trans h.2.1
  | fallbackKept id hsearch hlookup hfallback =>
    refine Or.inl ⟨hnone fun id' h => ?_, rfl⟩
    cases hfallback.symm.trans h.2.2
  | failed id hsearch hlookup hfallback => exact hfailed hsearch hlookup hfallback
  | adopted id hsearch hlookup hfallback => exact hfailed hsearch hlookup hfallback

/-! ## Where a frame is -/

/-- Behind the generation check, before the status. -/
def BeforeStatus : Pc F → Prop
  | .drain | .messages | .walk | .updateUniverse | .sendStatus _ => True
  | _ => False

/-- Between the status and the end of the frame. -/
def AfterStatus : Pc F → Prop
  | .sendUniverse .. | .sendHmdPose _ => True
  | _ => False

section Steps

variable [FloatOrder F] [Arith F] [FloatOrder D] [Arith D] [FloatConv F D] [FloatBits F 32]
  [FloatBits D 64]

def step (h : Handlers D δ ι) (e : Event F D δ ι) (s : HandshakeSession F D δ) :
    HandshakeSession F D δ :=
  let driver := Provider.step h e s.driver
  { driver := driver
    same := match e, s.driver.pc with
      | .step _, .checkGeneration | .step _, .readGeneration => true
      | .step _, .sendStatus hmd => s.same || statusDue hmd s.driver
      | _, _ => s.same && driver.client.generation == s.driver.client.generation }

/-- The frame's status was accepted or is not due, and the connection was not replaced since. Where
it was dropped, the connection has accepted something before. -/
def Served (s : HandshakeSession F D δ) : Prop :=
  if s.driver.statusSent then s.same = true else s.driver.client.acceptedHere ≠ []

/-- A `path_failed` is not taken on a new connection, and a universe or a position not in a frame
whose status was dropped there, or whose connection was replaced. -/
def InOrder (e : Event F D δ ι) (s : HandshakeSession F D δ) : Prop :=
  match e, s.driver.pc with
  | .step io, .updateUniverse => ReportsFailure io s.driver →
    s.driver.client.Takes (pathFailedPayload s.driver) io.outcome →
    s.driver.client.acceptedHere ≠ []
  | .step io, .sendUniverse _ due =>
    (s.driver.haveUniverse && (due || !s.driver.helloSent)) = true →
    s.driver.client.Takes (universePayload F s.driver.universe_) io.outcome → Served s
  | .step io, .sendHmdPose hmd => s.driver.now - s.driver.lastHmdSend ≥ milliseconds 10 →
    s.driver.client.Takes (posePayload s.driver.knownUniverse hmd.matrix) io.outcome → Served s
  | _, _ => True

/-- After the step every connection has started with a status. -/
def KeepsFirst (h : Handlers D δ ι) (e : Event F D δ ι) (s : HandshakeSession F D δ) : Prop :=
  StatusFirst (step h e s).driver.client

/-! ## What the frame knows -/

structure Kept (s : HandshakeSession F D δ) : Prop where
  synced : s.driver.Synced
  first : StatusFirst s.driver.client
  unused : ∀ g, s.driver.client.generation < g → s.driver.client.accepted g = []
  before : BeforeStatus s.driver.pc → s.same = true →
    s.driver.generation = s.driver.client.generation
  after : AfterStatus s.driver.pc → s.same = true → s.driver.statusSent = true →
    s.driver.client.acceptedHere ≠ []
  replaced : BeforeStatus s.driver.pc ∨ AfterStatus s.driver.pc → s.same = false →
    s.driver.client.acceptedHere = []

omit [FloatOrder F] [Arith F] [FloatOrder D] [Arith D] [FloatBits D 64] in
theorem Kept.served_iff {s : HandshakeSession F D δ} (hs : s.Kept)
    (hpc : AfterStatus s.driver.pc) : Served s ↔ s.driver.client.acceptedHere ≠ [] := by
  unfold Served
  split
  next hsent =>
    cases hsame : s.same with
    | true => exact iff_of_true rfl (hs.after hpc hsame hsent)
    | false =>
      exact iff_of_false Bool.false_ne_true fun hne => hne (hs.replaced (Or.inr hpc) hsame)
  next => exact Iff.rfl

/-- A step that sends nothing. -/
theorem keepsFirst_of_accepted {h : Handlers D δ ι} {e : Event F D δ ι}
    {s : HandshakeSession F D δ} (hs : s.Kept)
    (ha : (step h e s).driver.client.accepted = s.driver.client.accepted) : KeepsFirst h e s := by
  unfold KeepsFirst StatusFirst
  rw [ha]
  exact hs.first

/-- A step that may send a message which is no status. -/
theorem keepsFirst_of_send {h : Handlers D δ ι} {e : Event F D δ ι} {s : HandshakeSession F D δ}
    {payload : Bytes} {o : SendResult} (hs : s.Kept)
    (hkind : payloadKind payload ≠ some .trackerStatus)
    (hc : (step h e s).driver.client = (s.driver.client.send payload o).2) :
    KeepsFirst h e s ↔
      (s.driver.client.Takes payload o → s.driver.client.acceptedHere ≠ []) := by
  unfold KeepsFirst
  rw [hc, statusFirst_send hs.synced.attached hs.first]
  simp only [hkind, or_false]

/-- A step behind the status that sends a message where it is due. That the connection has accepted
something is what the frame knows of its status. -/
theorem keepsFirst_of_due {h : Handlers D δ ι} {e : Event F D δ ι} {s : HandshakeSession F D δ}
    {payload : Bytes} {o : SendResult} {due : Prop} [Decidable due] (hs : s.Kept)
    (hpc : AfterStatus s.driver.pc) (hkind : payloadKind payload ≠ some .trackerStatus)
    (hc : (step h e s).driver.client =
      if due then (s.driver.client.send payload o).2 else s.driver.client) :
    KeepsFirst h e s ↔ (due → s.driver.client.Takes payload o → Served s) := by
  split at hc
  next hdue =>
    rw [keepsFirst_of_send hs hkind hc, hs.served_iff hpc]
    exact ⟨fun h' _ => h', fun h' => h' hdue⟩
  next hno =>
    refine iff_of_true (keepsFirst_of_accepted hs ?_) fun hdue => absurd hdue hno
    rw [hc]

omit [FloatOrder F] [Arith F] [FloatOrder D] [Arith D] [FloatBits D 64] in
theorem Kept.of_sent {s s' : HandshakeSession F D δ} (hs : s.Kept) (hsynced : s'.driver.Synced)
    (hfirst : StatusFirst s'.driver.client) (more : List Bytes)
    (hgen : s'.driver.client.generation = s.driver.client.generation)
    (haccepted : s'.driver.client.accepted = update s.driver.client.accepted
      s.driver.client.generation (s.driver.client.acceptedHere ++ more))
    (hbefore : BeforeStatus s'.driver.pc → s'.same = true →
      s'.driver.generation = s.driver.client.generation)
    (hafter : AfterStatus s'.driver.pc → s'.same = true → s'.driver.statusSent = true →
      s.driver.client.acceptedHere ++ more ≠ [])
    (hreplaced : BeforeStatus s'.driver.pc ∨ AfterStatus s'.driver.pc → s'.same = false →
      s.driver.client.acceptedHere ++ more = []) : s'.Kept := by
  have hhere : s'.driver.client.acceptedHere = s.driver.client.acceptedHere ++ more := by
    rw [Client.acceptedHere, hgen, haccepted, update_same]
  exact {
    synced := hsynced
    first := hfirst
    unused := fun g hg => by
      rw [hgen] at hg
      rw [haccepted, update_of_ne _ _ (by omega)]
      exact hs.unused g hg
    before := fun hpc hsame => by
      rw [hgen]
      exact hbefore hpc hsame
    after := fun hpc hsame hsent => by
      rw [hhere]
      exact hafter hpc hsame hsent
    replaced := fun hpc hsame => by
      rw [hhere]
      exact hreplaced hpc hsame }

/-! ## One step -/

omit [FloatOrder F] [Arith F] [FloatOrder D] [Arith D] [FloatBits D 64] in
theorem client_sendUniverse (io : Io F D ι) (hmd : HmdPose F) (due : Bool) (d : Provider F D δ) :
    (d.sendUniverse io hmd due).client =
      if d.haveUniverse && (due || !d.helloSent) then
        (d.client.send (universePayload F d.universe_) io.outcome).2
      else d.client := by
  unfold sendUniverse
  split <;> rfl

theorem client_sendHmdPose (io : Io F D ι) (hmd : HmdPose F) (d : Provider F D δ) :
    (d.sendHmdPose io hmd).client =
      if d.now - d.lastHmdSend ≥ milliseconds 10 then
        (d.client.send (posePayload d.knownUniverse hmd.matrix) io.outcome).2
      else d.client := by
  unfold sendHmdPose
  split <;> rfl

/-- Only four steps of a frame use the client's `send`. -/
theorem accepted_frameStep {io : Io F D ι} {d d' : Provider F D δ} (h : FrameStep io d d')
    (hupdate : d.pc ≠ .updateUniverse) (hstatus : ∀ hmd, d.pc ≠ .sendStatus hmd)
    (hafter : ¬AfterStatus d.pc) : d'.client.accepted = d.client.accepted := by
  cases h with
  | universeNotFound id c hpc | universeFallback id c hpc => exact absurd hpc hupdate
  | status hmd hmdOk hpc => exact absurd hpc (hstatus hmd)
  | universeSent hmd due hpc =>
    rw [hpc] at hafter
    exact absurd trivial hafter
  | pose hmd hpc =>
    rw [hpc] at hafter
    exact absurd trivial hafter
  | _ => rfl

/-- A frame makes no connection. -/
theorem generation_frameStep {io : Io F D ι} {d d' : Provider F D δ} (h : FrameStep io d d') :
    d'.client.generation = d.client.generation := by
  cases h with
  | universeNotFound _ c _ _ _ _ hc | universeFallback _ c _ _ _ _ hc =>
    rcases hc with rfl | ⟨failed, o, rfl⟩
    · rfl
    · exact Client.send_generation _ _ _
  | status | universeSent | pose => exact Client.send_generation _ _ _
  | _ => rfl

/-- **A step keeps the order if and only if it is in order.** -/
theorem keepsFirst_iff (h : Handlers D δ ι) (e : Event F D δ ι) (s : HandshakeSession F D δ)
    (hs : s.Kept) : KeepsFirst h e s ↔ InOrder e s := by
  cases e with
  | net e => exact iff_of_true (keepsFirst_of_accepted hs (Client.step_accepted e _)) trivial
  | frame now =>
    refine iff_of_true (keepsFirst_of_accepted hs ?_) trivial
    show (s.driver.beginFrame now).client.accepted = _
    rcases beginFrame_cases now s.driver with hb | ⟨-, -, hb⟩ | ⟨-, -, hb⟩ <;> rw [hb]
  | outside f => exact iff_of_true (keepsFirst_of_accepted hs rfl) trivial
  | step io =>
    have hstep : (step h (.step io) s).driver = s.driver.frameStep h io := rfl
    cases hpc : s.driver.pc with
    | updateUniverse =>
      simp only [InOrder, hpc]
      have hclient : (step h (.step io) s).driver.client = (s.driver.updateUniverse io).client := by
        simp only [hstep, frameStep, hpc]
      rcases client_updateUniverse io s.driver with ⟨hno, hc⟩ | ⟨hyes, hc⟩
      · refine iff_of_true (keepsFirst_of_accepted hs ?_) fun hyes => absurd hyes hno
        rw [hclient, hc]
      · rw [keepsFirst_of_send hs _ (hclient.trans hc)]
        · exact ⟨fun h' _ => h', fun h' => h' hyes⟩
        · rw [pathFailedPayload, payloadKind_encodePathFailed]
          decide
    | sendStatus hmd =>
      -- a status keeps the order wherever it is accepted
      simp only [InOrder, hpc, iff_true]
      have hclient : (step h (.step io) s).driver.client = (s.driver.sendStatus io hmd).client := by
        simp only [hstep, frameStep, hpc]
      unfold sendStatus at hclient
      dsimp only at hclient
      split at hclient
      · unfold KeepsFirst
        rw [hclient, statusFirst_send hs.synced.attached hs.first]
        exact fun _ => Or.inr (payloadKind_statusPayload _)
      · exact keepsFirst_of_accepted hs (by rw [hclient])
    | sendUniverse hmd due =>
      simp only [InOrder, hpc]
      refine keepsFirst_of_due hs (by simp [hpc, AfterStatus]) ?_ ?_
      · rw [payloadKind_universePayload]
        decide
      · rw [← client_sendUniverse io hmd due]
        simp only [hstep, frameStep, hpc]
    | sendHmdPose hmd =>
      simp only [InOrder, hpc]
      refine keepsFirst_of_due hs (by simp [hpc, AfterStatus]) ?_ ?_
      · rw [payloadKind_posePayload]
        decide
      · rw [← client_sendHmdPose io hmd]
        simp only [hstep, frameStep, hpc]
    | _ =>
      simp only [InOrder, hpc, iff_true]
      refine keepsFirst_of_accepted hs (accepted_frameStep (frameStep_cases h io s.driver) ?_ ?_ ?_)
      all_goals simp [hpc, AfterStatus]

omit [FloatOrder F] [Arith F] [FloatOrder D] [Arith D] [FloatBits D 64] in
/-- A step that sends nothing. -/
theorem Kept.of_quiet {s s' : HandshakeSession F D δ} (hs : s.Kept) (hsynced : s'.driver.Synced)
    (hgen : s'.driver.client.generation = s.driver.client.generation)
    (haccepted : s'.driver.client.accepted = s.driver.client.accepted)
    (hbefore : BeforeStatus s'.driver.pc → s'.same = true →
      s'.driver.generation = s.driver.client.generation)
    (hafter : AfterStatus s'.driver.pc → s'.same = true → s'.driver.statusSent = true →
      s.driver.client.acceptedHere ≠ [])
    (hreplaced : BeforeStatus s'.driver.pc ∨ AfterStatus s'.driver.pc → s'.same = false →
      s.driver.client.acceptedHere = []) : s'.Kept := by
  refine hs.of_sent hsynced ?_ [] hgen ?_ hbefore ?_ ?_
  · unfold StatusFirst
    rw [haccepted]
    exact hs.first
  · rw [List.append_nil, haccepted]
    exact (Client.update_self _ _).symm
  · rw [List.append_nil]
    exact hafter
  · rw [List.append_nil]
    exact hreplaced

/-- The ghost after a step of a frame. -/
def sameAfter (s : HandshakeSession F D δ) : Bool :=
  match s.driver.pc with
  | .checkGeneration | .readGeneration => true
  | .sendStatus hmd => s.same || statusDue hmd s.driver
  | _ => s.same

omit [FloatOrder F] [Arith F] [FloatOrder D] [Arith D] [FloatBits D 64] in
/-- A message that is no status is not the first of its connection. -/
theorem not_first_of_send {s : HandshakeSession F D δ} {payload : Bytes} {o : SendResult}
    (hs : s.Kept) (hkind : payloadKind payload ≠ some .trackerStatus)
    (hfirst : StatusFirst (s.driver.client.send payload o).2)
    (hempty : s.driver.client.acceptedHere = []) :
    s.driver.client.acceptedHere
      ++ (if (s.driver.client.send payload o).1 then [payload] else []) = [] := by
  rw [statusFirst_send hs.synced.attached hs.first] at hfirst
  rw [hempty, List.nil_append, if_neg]
  intro hok
  rcases hfirst (Client.send_fst_iff.mp hok) with hne | hk
  · exact hne hempty
  · exact hkind hk

omit [FloatOrder F] [Arith F] [FloatOrder D] [Arith D] [FloatBits D 64] in
/-- A step of a frame that sends another message. -/
theorem Kept.of_send {s : HandshakeSession F D δ} {d' : Provider F D δ} {payload : Bytes}
    {o : SendResult} (hs : s.Kept) (hsynced : d'.Synced) (hfirst : StatusFirst d'.client)
    (hkind : payloadKind payload ≠ some .trackerStatus)
    (hc : d'.client = (s.driver.client.send payload o).2)
    (hgen : d'.generation = s.driver.generation) (hsent : d'.statusSent = s.driver.statusSent)
    (hbefore : BeforeStatus d'.pc → BeforeStatus s.driver.pc)
    (hafter : AfterStatus d'.pc → AfterStatus s.driver.pc) : Kept ⟨d', s.same⟩ := by
  refine hs.of_sent hsynced hfirst (if (s.driver.client.send payload o).1 then [payload] else [])
    ?_ ?_ ?_ ?_ ?_
  · rw [hc, Client.send_generation]
  · rw [hc, hs.synced.attached.accepted_send]
  · intro hpc hsame
    rw [hgen]
    exact hs.before (hbefore hpc) hsame
  · intro hpc hsame hsent'
    have hne := hs.after (hafter hpc) hsame (hsent ▸ hsent')
    exact fun hnil => hne (List.append_eq_nil_iff.mp hnil).1
  · intro hpc hsame
    refine not_first_of_send hs hkind (hc ▸ hfirst) (hs.replaced (hpc.imp hbefore hafter) hsame)

theorem kept_frameStep {io : Io F D ι} {s : HandshakeSession F D δ} {d' : Provider F D δ}
    (h : FrameStep io s.driver d') (hs : s.Kept) (hsynced : d'.Synced)
    (hfirst : StatusFirst d'.client) : Kept ⟨d', sameAfter s⟩ := by
  have htried : ∀ {c : Client}, TriedPathFailed s.driver.client c → d'.client = c →
      d'.generation = s.driver.generation → d'.statusSent = s.driver.statusSent →
      BeforeStatus s.driver.pc → ¬AfterStatus d'.pc → Kept ⟨d', s.same⟩ := by
    rintro c (rfl | ⟨failed, o, rfl⟩) hc hgen hsent hbefore hafter
    · refine hs.of_quiet hsynced (by rw [hc]) (by rw [hc]) (fun _ hsame => ?_)
        (fun h' => absurd h' hafter) fun _ => hs.replaced (Or.inl hbefore)
      exact hgen.trans (hs.before hbefore hsame)
    · exact hs.of_send hsynced hfirst (by rw [payloadKind_encodePathFailed]; decide) hc hgen hsent
        (fun _ => hbefore) fun h' => absurd h' hafter
  cases h with
  | idle hpc | offline t d hpc | poseSkipped hmd hpc =>
    refine hs.of_quiet hsynced rfl rfl ?_ ?_ ?_ <;> simp [BeforeStatus, AfterStatus, hpc]
  | stale hpc =>
    refine hs.of_quiet hsynced rfl rfl ?_ ?_ ?_ <;> simp [BeforeStatus, AfterStatus]
  | current hpc hgen =>
    refine hs.of_quiet hsynced rfl rfl (fun _ _ => hgen.symm) ?_ ?_ <;>
      simp [AfterStatus, sameAfter, hpc]
  | readGeneration hpc =>
    refine hs.of_quiet hsynced rfl rfl (fun _ _ => rfl) ?_ ?_ <;>
      simp [AfterStatus, sameAfter, hpc]
  | drain hpc | message m d hpc | messagesEnd t d hpc | walk d hpc | universeKept t hpc
  | universeFound id found hpc =>
    have hbefore : BeforeStatus s.driver.pc := by simp [BeforeStatus, hpc]
    rw [show sameAfter s = s.same by simp only [sameAfter, hpc]]
    refine hs.of_quiet hsynced rfl rfl (fun _ => hs.before hbefore) ?_
      fun _ => hs.replaced (Or.inl hbefore)
    simp [AfterStatus, hpc]
  | universeNotFound id c hpc _ _ _ hc | universeFallback id c hpc _ _ _ hc =>
    rw [show sameAfter s = s.same by simp only [sameAfter, hpc]]
    exact htried hc rfl rfl rfl (by simp [BeforeStatus, hpc]) (by simp [AfterStatus])
  | status hmd hmdOk hpc hok hdue =>
    -- the status goes to the connection of this moment, whatever was replaced before
    have hsame : sameAfter s = true := by
      simp only [sameAfter, hpc, statusDue, ← hok]
      rcases hdue with hdue | hdue <;> simp [hdue]
    refine hs.of_sent hsynced hfirst _ (Client.send_generation _ _ _)
      (hs.synced.attached.accepted_send _ _) (by simp [BeforeStatus]) ?_ ?_
    · intro _ _ hsent
      rw [if_pos hsent]
      exact List.append_ne_nil_of_right_ne_nil _ (List.cons_ne_nil _ _)
    · intro _ hfalse
      cases hsame.symm.trans hfalse
  | statusKept hmd hpc hsent hok =>
    have hbefore : BeforeStatus s.driver.pc := by simp [BeforeStatus, hpc]
    have hsame : sameAfter s = s.same := by
      simp [sameAfter, hpc, statusDue, hsent, hok]
    rw [hsame]
    refine hs.of_quiet hsynced rfl rfl (by simp [BeforeStatus]) ?_
      fun _ => hs.replaced (Or.inl hbefore)
    intro _ hsame' _
    -- no status is due, so this connection has accepted the last one
    obtain ⟨before, after, haccepted, -⟩ := hs.synced.status (hs.before hbefore hsame') hsent
    rw [haccepted]
    simp
  | universeSent hmd due hpc =>
    rw [show sameAfter s = s.same by simp only [sameAfter, hpc]]
    refine hs.of_send hsynced hfirst (by simp) rfl rfl rfl ?_ ?_ <;>
      simp [BeforeStatus, AfterStatus, hpc]
  | universeSkipped hmd due hpc =>
    have hafter : AfterStatus s.driver.pc := by simp [AfterStatus, hpc]
    rw [show sameAfter s = s.same by simp only [sameAfter, hpc]]
    exact hs.of_quiet hsynced rfl rfl (by simp [BeforeStatus]) (fun _ => hs.after hafter)
      fun _ => hs.replaced (Or.inr hafter)
  | pose hmd hpc =>
    rw [show sameAfter s = s.same by simp only [sameAfter, hpc]]
    refine hs.of_send hsynced hfirst (by simp) rfl rfl rfl ?_ ?_ <;>
      simp [BeforeStatus, AfterStatus]

theorem kept_net {s : HandshakeSession F D δ} (h : Handlers D δ ι) (e : Client.Event)
    (hs : s.Kept) : (step h (.net e) s).Kept := by
  have hsynced : (step h (.net e) s).driver.Synced := synced_step h (.net e) s.driver hs.synced
  have haccepted : (step h (.net e) s).driver.client.accepted = s.driver.client.accepted :=
    Client.step_accepted e s.driver.client
  have hsame : (step h (.net e) s).same =
      (s.same && (Client.step e s.driver.client).generation == s.driver.client.generation) := by
    simp only [step]
    rfl
  by_cases hgen : (Client.step e s.driver.client).generation = s.driver.client.generation
  · have hsame : (step h (.net e) s).same = s.same := by simp [hsame, hgen]
    refine hs.of_quiet hsynced hgen haccepted ?_ ?_ ?_ <;> rw [hsame]
    · exact hs.before
    · exact hs.after
    · exact hs.replaced
  · -- a new connection, which has accepted nothing yet
    obtain ⟨rfl, hthread⟩ := Client.step_generation hgen
    have hnew : (step h (.net .connect) s).driver.client.generation
        = s.driver.client.generation + 1 := by
      show (Client.step .connect s.driver.client).generation = _
      rw [Client.step, if_pos hthread]
    have hsame : (step h (.net .connect) s).same = false := by simp [hsame, hgen]
    exact {
      synced := hsynced
      first := by
        unfold StatusFirst
        rw [haccepted]
        exact hs.first
      unused := fun g hg => by
        rw [haccepted]
        exact hs.unused g (by omega)
      before := fun _ htrue => by cases hsame.symm.trans htrue
      after := fun _ htrue => by cases hsame.symm.trans htrue
      replaced := fun _ _ => by
        rw [Client.acceptedHere, hnew, haccepted]
        exact hs.unused _ (Nat.lt_succ_self _) }

theorem kept_step (h : Handlers D δ ι) (e : Event F D δ ι) (s : HandshakeSession F D δ)
    (hok : InOrder e s) (hs : s.Kept) : (step h e s).Kept := by
  have hsynced : (step h e s).driver.Synced := synced_step h e s.driver hs.synced
  have hfirst : StatusFirst (step h e s).driver.client := (keepsFirst_iff h e s hs).mpr hok
  cases e with
  | net e => exact kept_net h e hs
  | frame now =>
    have hidle : s.driver.beginFrame now = s.driver ∨
        ¬BeforeStatus (s.driver.beginFrame now).pc ∧ ¬AfterStatus (s.driver.beginFrame now).pc ∧
          (s.driver.beginFrame now).client = s.driver.client := by
      rcases beginFrame_cases now s.driver with hb | ⟨-, -, hb⟩ | ⟨-, -, hb⟩
      · exact Or.inl hb
      · exact Or.inr (by rw [hb]; exact ⟨id, id, rfl⟩)
      · exact Or.inr (by rw [hb]; exact ⟨id, id, rfl⟩)
    have hstep : step h (.frame now) s = ⟨s.driver.beginFrame now,
        s.same && (s.driver.beginFrame now).client.generation == s.driver.client.generation⟩ := rfl
    rw [hstep] at hsynced ⊢
    rcases hidle with hb | ⟨hbefore, hafter, hc⟩
    · rw [hb, beq_self_eq_true, Bool.and_true]
      exact hs
    · refine hs.of_quiet hsynced (by rw [hc]) (by rw [hc]) (fun h' => absurd h' hbefore)
        (fun h' => absurd h' hafter) fun h' => absurd h' (not_or.mpr ⟨hbefore, hafter⟩)
  | outside f =>
    have hstep : step h (.outside f) s =
        ⟨{ s.driver with devices := f s.driver.devices }, s.same && true⟩ := by
      simp [step, Provider.step]
    rw [hstep, Bool.and_true] at hsynced ⊢
    exact hs.of_quiet hsynced rfl rfl hs.before hs.after hs.replaced
  | step io =>
    have hgen := generation_frameStep (frameStep_cases h io s.driver)
    have hstep : step h (.step io) s = ⟨s.driver.frameStep h io, sameAfter s⟩ := by
      simp only [step, Provider.step, sameAfter, hgen, beq_self_eq_true, Bool.and_true]
      cases s.driver.pc <;> rfl
    rw [hstep] at hsynced hfirst ⊢
    exact kept_frameStep (frameStep_cases h io s.driver) hs hsynced hfirst

/-! ## Every run -/

omit [FloatOrder F] [Arith F] [Arith D] [FloatBits D 64] in
theorem kept_init (devices : δ) (fallback : Bool) (path : String) :
    (init devices fallback path : HandshakeSession F D δ).Kept where
  synced := synced_init devices fallback path
  first := by simp [StatusFirst, init, Provider.init]
  unused _ _ := rfl
  before h := absurd h id
  after h := absurd h id
  replaced _ h := by cases h

/-- The driver of a session is the driver. -/
theorem driver_run (h : Handlers D δ ι) :
    ∀ (es : List (Event F D δ ι)) (s : HandshakeSession F D δ),
      (run (step h) es s).driver = run (Provider.step h) es s.driver := by
  intro es
  induction es with
  | nil =>
    intro s
    rfl
  | cons e es ih =>
    intro s
    exact ih (step h e s)

/-- **In every state of a run all connections have started with a status, if and only if all its
steps are in order.** -/
theorem first_iff (h : Handlers D δ ι) (devices : δ) (fallback : Bool) (path : String)
    (es : List (Event F D δ ι)) :
    (∀ n, StatusFirst (after h devices fallback path (es.take n)).client) ↔
      Meets InOrder (step h) es (init devices fallback path) := by
  have hkept := kept_init (F := F) (D := D) devices fallback path
  have hdriver : ∀ n, after h devices fallback path (es.take n) =
      (run (step h) (es.take n) (init devices fallback path)).driver :=
    fun n => (driver_run h (es.take n) (init devices fallback path)).symm
  simp only [hdriver]
  rw [forall_take_iff (P := fun s : HandshakeSession F D δ => StatusFirst s.driver.client) es
    hkept.first]
  exact Meets.iff_of_invariant (kept_step h) (keepsFirst_iff h) es hkept

end Steps

/-! ## A dropped status -/

/-- A headset that is tracked and has no universe, and what the kernel does with a write. -/
def lostHeadset (o : SendResult) : Io ℚ ℚ Unit where
  vr := ()
  hmd := ⟨true, true, fun i j => if i.val = j.val then 1 else 0⟩
  chaperone := ⟨none, fun _ => none⟩
  outcome := o

/-- The first frame of a connection, in which the buffer is full when the status is sent. -/
def droppedStatus : List (Event ℚ ℚ Unit Unit) :=
  [.net .connect, .net .publish, .frame (seconds 5)]
    ++ List.replicate 7 (.step (lostHeadset .wouldBlock))
    ++ List.replicate 2 (.step (lostHeadset (.sent 100)))

/-- The connection starts with a position. -/
theorem not_first :
    ¬∀ es : List (Event ℚ ℚ Unit Unit), StatusFirst (after .idle () true "" es).client := by
  intro h
  have hposition : ((after .idle () true "" droppedStatus).client.accepted 1).head?.bind payloadKind
      = some .position := by decide +kernel
  obtain ⟨p, hp, hkind⟩ := Option.bind_eq_some_iff.mp hposition
  cases hkind.symm.trans (h droppedStatus 1 p hp)

end HandshakeSession

end Rebocap.Driver

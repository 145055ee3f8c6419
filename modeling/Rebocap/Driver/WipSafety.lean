import Rebocap.Driver.WipSession

/-!
# When walk-in-place moves a stick

The treadmill's stick and a controller's are never moved at the same time, and an output step moves
one only as far as the settings and the last messages permit.

* `output_safe` — both, in every state of every session
-/

namespace Rebocap.Driver.WipSafety

open Lib FloatOrder Arith FloatBits Proto Hooks

variable {D : Type}

/-! ## One output at a time -/

/-- What is moved, by where the frame thread is and which output is selected. -/
structure Exclusive (s : Session D) : Prop where
  exclusive : Overrides s.walk → ¬TreadmillMoves s.walk
  injection : s.pc = .idle → s.walk.usesTreadmill = false → ¬TreadmillMoves s.walk
  treadmill : s.pc = .idle → s.walk.usesTreadmill = true → ¬Overrides s.walk
  released : ∀ m, s.pc = .add m ∨ s.pc = .connect m → ¬Overrides s.walk
  handling : ∀ m, s.pc = .release m ∨ s.pc = .add m ∨ s.pc = .connect m →
    s.walk.wipOpen = m.openWip ∧ s.walk.wipAsTreadmill = m.outputAsTreadmill

/-- Between two handlers only the selected output is moved. -/
theorem Exclusive.of_idle {s : Session D} (hpc : s.pc = .idle)
    (hinjection : s.walk.usesTreadmill = false → ¬TreadmillMoves s.walk)
    (htreadmill : s.walk.usesTreadmill = true → ¬Overrides s.walk) : Exclusive s := by
  refine ⟨?_, fun _ => hinjection, fun _ => htreadmill, ?_, ?_⟩
  · intro ho
    cases hu : s.walk.usesTreadmill with
    | true => exact absurd ho (htreadmill hu)
    | false => exact hinjection hu
  · intro m hm
    rw [hpc] at hm
    rcases hm with hm | hm <;> cases hm
  · intro m hm
    rw [hpc] at hm
    rcases hm with hm | hm | hm <;> cases hm

/-- After its first part `OnWipSetting` overrides no stick. -/
theorem Exclusive.of_released {s : Session D} {m : Msg} (hpc : s.pc = .add m ∨ s.pc = .connect m)
    (hnone : ¬Overrides s.walk)
    (hset : s.walk.wipOpen = m.openWip ∧ s.walk.wipAsTreadmill = m.outputAsTreadmill) :
    Exclusive s := by
  have hidle : s.pc ≠ .idle := by
    rcases hpc with hpc | hpc <;> simp [hpc]
  refine ⟨fun ho => absurd ho hnone, fun h => absurd h hidle, fun h => absurd h hidle,
    fun _ _ => hnone, ?_⟩
  intro m' hm
  have hsame : m' = m := by
    rcases hpc with hpc | hpc <;> simpa [hpc, eq_comm] using hm
  rw [hsame]
  exact hset

theorem TreadmillMoves.of_same {walk walk' : WalkInPlace Binary32 D}
    (ht : walk'.treadmill = walk.treadmill)
    (hc : ∀ t, walk.treadmill = some t → t.activated → ∀ a,
      walk'.world.components (t.handle a) = walk.world.components (t.handle a))
    (h : TreadmillMoves walk') : TreadmillMoves walk := by
  obtain ⟨t, ht', ha, v, hv, h0⟩ := h
  rw [ht] at ht'
  have hx : walk'.world.components t.x = walk.world.components t.x := hc t ht' ha .x
  have hy : walk'.world.components t.y = walk.world.components t.y := hc t ht' ha .y
  rw [hx, hy] at hv
  exact ⟨t, ht', ha, v, hv, h0⟩

/-- A step that leaves the frame thread where it is, the settings and the override. -/
theorem Exclusive.frame {s s' : Session D} (h : Exclusive s) (hpc : s'.pc = s.pc)
    (hinstalled : s'.walk.world.hooks.installed = s.walk.world.hooks.installed)
    (hoverriding : s'.walk.world.hooks.overriding = s.walk.world.hooks.overriding)
    (hopen : s'.walk.wipOpen = s.walk.wipOpen)
    (has : s'.walk.wipAsTreadmill = s.walk.wipAsTreadmill)
    (hmoves : TreadmillMoves s'.walk → TreadmillMoves s.walk) : Exclusive s' := by
  have huses : s'.walk.usesTreadmill = s.walk.usesTreadmill := by
    unfold WalkInPlace.usesTreadmill
    rw [hinstalled, has]
  have ho : Overrides s'.walk ↔ Overrides s.walk := by
    unfold Overrides
    rw [hoverriding]
  constructor
  · intro ho' hm
    exact h.exclusive (ho.mp ho') (hmoves hm)
  · intro hidle hu hm
    exact h.injection (hpc ▸ hidle) (huses ▸ hu) (hmoves hm)
  · intro hidle hu ho'
    exact h.treadmill (hpc ▸ hidle) (huses ▸ hu) (ho.mp ho')
  · intro m hm ho'
    rw [hpc] at hm
    exact h.released m hm (ho.mp ho')
  · intro m hm
    rw [hpc] at hm
    rw [hopen, has]
    exact h.handling m hm

/-! ### Steps outside the output -/

theorem exclusive_createComponent {s : Session D} (hr : Rig s.walk) (h : Exclusive s)
    (self : DriverInput) (c : Container) (name : Option String) (boolean : Bool) (k : Handle) :
    Exclusive { s with walk := { s.walk with
      world := createComponent self c name boolean k s.walk.world } } := by
  obtain ⟨n, waiting, hhooks⟩ := createComponent_hooks self c name boolean k s.walk.world
  refine h.frame rfl ?_ ?_ rfl rfl (TreadmillMoves.of_same rfl ?_)
  · dsimp only
    rw [hhooks]
  · dsimp only
    rw [hhooks]
  · intro t ht ha a
    obtain ⟨v, hv, -⟩ := Option.map_eq_some_iff.mp ((hr.mounted t ht ha).typed a)
    rw [hv, createComponent_components]
    exact Components.create_of_some hv

theorem exclusive_updateComponent {s : Session D} (h : Exclusive s) {k : Handle}
    (v : Value Binary32) (hk : ¬owns s.walk k) :
    Exclusive { s with walk := { s.walk with world := updateComponent k v s.walk.world } } := by
  obtain ⟨sticks, hhooks⟩ := updateComponent_hooks k v s.walk.world
  refine h.frame rfl ?_ ?_ rfl rfl (TreadmillMoves.of_same rfl ?_)
  · dsimp only
    rw [hhooks]
  · dsimp only
    rw [hhooks]
  · intro t ht ha a
    exact updateComponent_other v fun hka => hk ⟨t, ht, a, hka⟩

theorem exclusive_activate {s : Session D} (h : Exclusive s) (index : UInt32) (c : Container)
    (touch x y : Handle) : Exclusive (activate index c touch x y s) := by
  unfold activate
  split
  · exact h
  next t ht =>
    split
    next hfresh =>
      obtain ⟨n, waiting, hhooks⟩ := activate_hooks t s.walk.world index c touch x y
      refine h.frame rfl (by rw [hhooks]) (by rw [hhooks]) rfl rfl ?_
      rintro ⟨t', ht', -, hd⟩
      cases ht'
      have hshows := (activate_components t index c hfresh).2
      rcases (deflected_iff hshows).mp hd with h0 | h0 <;>
        exact absurd Binary32.zero_beq_zero (by rw [h0]; simp)
    next => exact h

theorem exclusive_message {s : Session D} (h : Exclusive s) (hpc : s.pc = .idle) (m : Msg) :
    Exclusive (onMessage m s) := by
  unfold onMessage
  split
  · obtain ⟨hand, poseHooks, ⟨ha, hopen, has⟩ | ⟨ha, -⟩⟩ := s.walk.assignSetting_cases m
    · rw [ha]
      exact h.frame hpc.symm rfl rfl rfl rfl id
    · rw [ha]
      constructor
      · exact h.exclusive
      · intro hidle
        cases hidle
      · intro hidle
        cases hidle
      · rintro m' (hm | hm)
        · cases hm
        · cases hm
      · rintro m' (hm | hm | hm)
        · cases hm
          exact ⟨rfl, rfl⟩
        · cases hm
        · cases hm
  · obtain ⟨speed, walking, hinfo⟩ := s.walk.onWipInfo_frame m s.clock
    rw [hinfo]
    exact h.frame rfl rfl rfl rfl rfl id
  · exact h

/-! ### The output -/

/-- The state in which `UpdateWalkInPlace` writes its output. -/
def beforeOutput (io : WalkIo Binary32) (now : Int) (walk : WalkInPlace Binary32 D) :
    WalkInPlace Binary32 D :=
  ({ walk.resolveHooks io now with lastWipOutput := now }).timeOutSpeed now

theorem beforeOutput_frame (io : WalkIo Binary32) (now : Int) (walk : WalkInPlace Binary32 D) :
    ∃ sticks waiting poseHooks resolved speed, beforeOutput io now walk =
        { walk with
          world := { walk.world with
            hooks := { walk.world.hooks with sticks := sticks, pending := waiting } }
          poseHooks := poseHooks
          lastHookResolve := resolved
          lastWipOutput := now
          wipSpeed := speed } ∧
      (speed = 0 ∨ speed = walk.wipSpeed ∧ now - walk.lastWipInfo ≤ seconds 1) := by
  obtain ⟨sticks, waiting, poseHooks, resolved, hresolved⟩ := walk.resolveHooks_frame io now
  unfold beforeOutput
  rw [hresolved]
  unfold WalkInPlace.timeOutSpeed
  split
  next => exact ⟨_, _, _, _, _, rfl, .inl rfl⟩
  next h => exact ⟨_, _, _, _, _, rfl, .inr ⟨rfl, Int.not_lt.mp h⟩⟩

theorem Rig.beforeOutput {walk : WalkInPlace Binary32 D} (hr : Rig walk) (io : WalkIo Binary32)
    (now : Int) : Rig (beforeOutput io now walk) := by
  have hstamped : Rig { walk.resolveHooks io now with lastWipOutput := now } :=
    (hr.resolveHooks io now).congr rfl rfl rfl
  exact hstamped.timeOutSpeed now

theorem exclusive_beforeOutput {s : Session D} (h : Exclusive s) (io : WalkIo Binary32) :
    Exclusive { s with walk := beforeOutput io s.clock s.walk } := by
  obtain ⟨sticks, waiting, poseHooks, resolved, speed, hbefore, -⟩ :=
    beforeOutput_frame io s.clock s.walk
  rw [hbefore]
  exact h.frame rfl rfl rfl rfl rfl (TreadmillMoves.of_same rfl fun _ _ _ _ => rfl)

section Output

variable [Arith Binary32] {walk : WalkInPlace Binary32 D}

/-- `SetStick` is not seen by the hooks' override, and leaves the stick at zero unless the speed is
not zero. -/
theorem setStick_spec {t t' : Treadmill Binary32} {w w' : World Binary32} {own : List Container}
    {y : Binary32} (hm : t.activated → Mounted t w own) (hset : t.setStick 0 y w = (t', w')) :
    w'.hooks = w.hooks ∧ (t'.activated → Deflected t' w'.components → (y == 0) = false) := by
  by_cases ha : t.activated
  · refine ⟨?_, fun _ hd => deflected_setStick (hm ha) ha hset hd⟩
    have hcases := (hm ha).setStick ha 0 y
    rw [hset] at hcases
    rcases hcases with ⟨-, rfl, -⟩ | ⟨-, -, -, hhooks, -⟩
    · rfl
    · exact hhooks
  · have hskip : t.setStick 0 y w = (t, w) := if_pos (.inl ha)
    rw [hskip] at hset
    cases hset
    exact ⟨rfl, fun ha' => absurd ha' ha⟩

theorem connectTreadmill_spec (hr : Rig walk) :
    walk.connectTreadmill.world.hooks = walk.world.hooks ∧
      (walk.wantsTreadmill = false → ¬TreadmillMoves walk.connectTreadmill) := by
  unfold WalkInPlace.connectTreadmill
  cases ht : walk.treadmill with
  | none =>
    refine ⟨rfl, ?_⟩
    rintro - ⟨t, ht', -⟩
    cases ht.symm.trans ht'
  | some t =>
    dsimp only
    have hm : ∀ t' : Treadmill Binary32, t' = { t with deviceIsConnected := walk.wantsTreadmill } →
        t'.activated → Mounted t' walk.world walk.treadmillContainers := by
      rintro t' rfl ha
      have hm := hr.mounted t ht ha
      exact ⟨hm.injective, hm.typed, hm.apart, hm.waiting, hm.shows⟩
    rcases hset : t.setConnected walk.wantsTreadmill walk.world with ⟨t', w'⟩
    unfold Treadmill.setConnected at hset
    dsimp only at hset
    split at hset
    next hna =>
      cases hset
      refine ⟨rfl, ?_⟩
      rintro - ⟨t', ht', ha, -⟩
      cases ht'
      exact hna ha
    next =>
      split at hset
      next =>
        obtain ⟨hhooks, hzero⟩ := setStick_spec (hm _ rfl) hset
        refine ⟨hhooks, ?_⟩
        rintro - ⟨t'', ht'', ha, hd⟩
        cases ht''
        exact absurd Binary32.zero_beq_zero (by rw [hzero ha hd]; simp)
      next hwants =>
        cases hset
        refine ⟨rfl, fun hw => absurd hw ?_⟩
        simpa using hwants

/-- The treadmill's output: no stick override changes, and the speed is what moves the
treadmill. -/
theorem writeOutput_treadmill (hr : Rig walk) (io : WalkIo Binary32)
    (hu : walk.usesTreadmill = true) :
    (walk.writeOutput io).world.hooks = walk.world.hooks ∧
      (TreadmillMoves (walk.writeOutput io) →
        (walk.outputSpeed io.connected == 0) = false) := by
  unfold WalkInPlace.writeOutput
  dsimp only
  rw [if_pos hu]
  cases ht : walk.treadmill with
  | none =>
    refine ⟨rfl, ?_⟩
    rintro ⟨t, ht', -⟩
    cases ht.symm.trans ht'
  | some t =>
    rcases hset : t.setStick 0 (walk.outputSpeed io.connected) walk.world with ⟨t', w'⟩
    obtain ⟨hhooks, hzero⟩ := setStick_spec (hr.mounted t ht) hset
    dsimp only
    rw [hset]
    refine ⟨hhooks, ?_⟩
    rintro ⟨t'', ht'', ha, hd⟩
    cases ht''
    exact hzero ha hd

/-- The injected output: the speed is what holds a stick, and the treadmill stays as it is. -/
theorem writeOutput_injection (hr : Rig walk) (io : WalkIo Binary32)
    (hu : walk.usesTreadmill = false) :
    (Overrides (walk.writeOutput io) → ¬walk.outputSpeed io.connected ≤ 0) ∧
      (TreadmillMoves (walk.writeOutput io) → TreadmillMoves walk) := by
  unfold WalkInPlace.writeOutput
  dsimp only
  rw [if_neg (by rw [hu]; simp)]
  constructor
  · intro ho hspeed
    refine ho ?_
    rw [drive_overriding, driven, if_pos hspeed]
  · refine TreadmillMoves.of_same rfl ?_
    intro t ht ha a
    exact drive_other _ _ _ _ fun i b => (hr.mounted t ht ha).apart a i b

theorem exclusive_proceed {s : Session D} (hr : Rig s.walk) (h : Exclusive s) (accepted : Bool) :
    Exclusive (proceed accepted s) := by
  unfold proceed
  split
  next => exact h
  next m hpc =>
    have hnone : ¬Overrides (s.walk.releaseStick) := by
      intro ho
      exact ho (drive_overriding _ _ _ _ _)
    exact .of_released (.inl rfl) hnone (h.handling m (.inl hpc))
  next m hpc =>
    have hnone : ¬Overrides (s.walk.addTreadmill accepted) := by
      unfold WalkInPlace.addTreadmill
      split <;> exact h.released m (.inl hpc)
    have hset : (s.walk.addTreadmill accepted).wipOpen = s.walk.wipOpen ∧
        (s.walk.addTreadmill accepted).wipAsTreadmill = s.walk.wipAsTreadmill := by
      unfold WalkInPlace.addTreadmill
      split <;> exact ⟨rfl, rfl⟩
    obtain ⟨hopen, has⟩ := h.handling m (.inr (.inl hpc))
    exact .of_released (.inr rfl) hnone ⟨hset.1.trans hopen, hset.2.trans has⟩
  next m hpc =>
    obtain ⟨hhooks, hzero⟩ := connectTreadmill_spec hr
    obtain ⟨t, w, hframe⟩ := s.walk.connectTreadmill_frame
    have huses : s.walk.connectTreadmill.usesTreadmill = s.walk.usesTreadmill := by
      unfold WalkInPlace.usesTreadmill
      rw [hhooks, hframe]
    refine .of_idle rfl ?_ ?_
    · intro hu
      refine hzero ?_
      unfold WalkInPlace.wantsTreadmill
      rw [← huses, hu, Bool.and_false]
    · intro _
      unfold Overrides
      rw [hhooks]
      exact h.released m (.inr hpc)

theorem updateWalkInPlace_eq (io : WalkIo Binary32) (now : Int) (walk : WalkInPlace Binary32 D) :
    walk.updateWalkInPlace io now =
      if walk.limited now then walk.resolveHooks io now
      else (beforeOutput io now walk).writeOutput io := by
  obtain ⟨sticks, waiting, poseHooks, resolved, hresolved⟩ := walk.resolveHooks_frame io now
  have hlimited : (walk.resolveHooks io now).limited now ↔ walk.limited now := by
    unfold WalkInPlace.limited
    rw [hresolved]
  unfold WalkInPlace.updateWalkInPlace beforeOutput
  dsimp only
  by_cases hl : walk.limited now
  · rw [if_pos hl, if_pos (hlimited.mpr hl)]
  · rw [if_neg hl, if_neg (fun h => hl (hlimited.mp h))]

theorem writeOutput_usesTreadmill (hr : Rig walk) (io : WalkIo Binary32) :
    (walk.writeOutput io).usesTreadmill = walk.usesTreadmill := by
  obtain ⟨t, w, hframe⟩ := walk.writeOutput_frame io
  have hinstalled : (walk.writeOutput io).world.hooks.installed =
      walk.world.hooks.installed := by
    cases hu : walk.usesTreadmill with
    | true => rw [(writeOutput_treadmill hr io hu).1]
    | false =>
      unfold WalkInPlace.writeOutput
      dsimp only
      rw [if_neg (by rw [hu]; simp)]
      obtain ⟨o, x, y, hhooks⟩ := drive_frame walk.wipHand (walk.outputSpeed io.connected) _ _
        walk.world
      dsimp only
      rw [hhooks]
  unfold WalkInPlace.usesTreadmill
  rw [hinstalled, hframe]

theorem exclusive_writeOutput {s : Session D} (hr : Rig s.walk) (h : Exclusive s)
    (hpc : s.pc = .idle) (io : WalkIo Binary32) :
    Exclusive { s with walk := s.walk.writeOutput io } := by
  refine .of_idle hpc ?_ ?_
  · intro hu hm
    rw [writeOutput_usesTreadmill hr] at hu
    exact h.injection hpc hu ((writeOutput_injection hr io hu).2 hm)
  · intro hu ho
    rw [writeOutput_usesTreadmill hr] at hu
    unfold Overrides at ho
    rw [(writeOutput_treadmill hr io hu).1] at ho
    exact h.treadmill hpc hu ho

theorem exclusive_step (e : Event) (s : Session D) (hr : Rig s.walk) (h : Exclusive s) :
    Exclusive (step e s) := by
  cases e with
  | wait elapsed => exact h.frame rfl rfl rfl rfl rfl id
  | create self c name boolean k => exact exclusive_createComponent hr h self c name boolean k
  | update k v =>
    simp only [step]
    split
    · exact h
    next hk => exact exclusive_updateComponent h v hk
  | activate index c touch x y => exact exclusive_activate h index c touch x y
  | deactivate =>
    refine h.frame rfl rfl rfl rfl rfl ?_
    rintro ⟨t, ht, ha, -⟩
    obtain ⟨t', -, rfl⟩ := Option.map_eq_some_iff.mp ht
    exact absurd rfl ha
  | message m =>
    simp only [step]
    split
    next hpc => exact exclusive_message h hpc m
    next => exact h
  | proceed accepted => exact exclusive_proceed hr h accepted
  | updateWalkInPlace io =>
    simp only [step]
    split
    next hpc =>
      rw [updateWalkInPlace_eq]
      split
      next =>
        obtain ⟨sticks, waiting, poseHooks, resolved, hresolved⟩ :=
          s.walk.resolveHooks_frame io s.clock
        rw [hresolved]
        exact h.frame rfl rfl rfl rfl rfl (TreadmillMoves.of_same rfl fun _ _ _ _ => rfl)
      next =>
        have hrig : Rig (beforeOutput io s.clock s.walk) := hr.beforeOutput io s.clock
        exact exclusive_writeOutput hrig (exclusive_beforeOutput h io) hpc io
    next => exact h

end Output

/-! ## What the output follows -/

/-- What the provider keeps of the messages. -/
structure Heard (s : Session D) : Prop where
  past : ∀ m t, lastInfo s.heard = some (m, t) → t ≤ s.clock
  speed : s.walk.wipSpeed = 0 ∨ ∃ m t, lastInfo s.heard = some (m, t) ∧
    s.walk.lastWipInfo = t ∧ s.walk.wipSpeed = speedOf m
  walking : s.walk.wipWalking = true → Walking s.heard
  setting : lastSetting s.heard = (s.walk.wipOpen, s.walk.wipAsTreadmill)

theorem Heard.frame {s s' : Session D} (h : Heard s) (hheard : s'.heard = s.heard)
    (hclock : s.clock ≤ s'.clock)
    (hspeed : s'.walk.wipSpeed = 0 ∨
      s'.walk.wipSpeed = s.walk.wipSpeed ∧ s'.walk.lastWipInfo = s.walk.lastWipInfo)
    (hwalking : s'.walk.wipWalking = s.walk.wipWalking) (hopen : s'.walk.wipOpen = s.walk.wipOpen)
    (has : s'.walk.wipAsTreadmill = s.walk.wipAsTreadmill) : Heard s' := by
  constructor
  · intro m t hm
    rw [hheard] at hm
    exact Int.le_trans (h.past m t hm) hclock
  · rcases hspeed with hspeed | ⟨hspeed, hlast⟩
    · exact .inl hspeed
    · rw [hheard, hspeed, hlast]
      exact h.speed
  · rw [hheard, hwalking]
    exact h.walking
  · rw [hheard, hopen, has]
    exact h.setting

/-- A setting stops walking where it changes the output. -/
theorem heard_wipSetting {s : Session D} {m : Msg} (h : Heard s) (hk : m.kind = .wipSetting)
    (pc : Pc) : Heard { s with
      walk := (s.walk.assignSetting m).1, pc := pc, heard := (m, s.clock) :: s.heard } := by
  have hinfo : lastInfo ((m, s.clock) :: s.heard) = lastInfo s.heard := by
    unfold lastInfo
    rw [List.find?_cons_of_neg (by rw [hk]; simp)]
  have hsetting : lastSetting ((m, s.clock) :: s.heard) = (m.openWip, m.outputAsTreadmill) := by
    unfold lastSetting
    rw [List.find?_cons_of_pos (by rw [hk]; simp)]
  obtain ⟨hand, poseHooks, ⟨ha, hopen, has⟩ | ⟨ha, -⟩⟩ := s.walk.assignSetting_cases m
  · rw [ha]
    constructor
    · dsimp only
      rw [hinfo]
      exact h.past
    · dsimp only
      rw [hinfo]
      exact h.speed
    · intro hw
      refine .later (h.walking hw) ?_
      rintro (⟨hk', -⟩ | ⟨-, hne⟩)
      · rw [hk] at hk'
        cases hk'
      · exact hne (by rw [h.setting, hopen, has])
    · rw [hsetting, hopen, has]
  · rw [ha]
    constructor
    · dsimp only
      rw [hinfo]
      exact h.past
    · exact .inl rfl
    · intro hw
      cases hw
    · exact hsetting

/-- A `wip_info` gives the speed, and starts or stops walking. -/
theorem heard_wipInfo {s : Session D} {m : Msg} (h : Heard s) (hk : m.kind = .wipInfo) :
    Heard { s with walk := s.walk.onWipInfo m s.clock, heard := (m, s.clock) :: s.heard } := by
  have hinfo : lastInfo ((m, s.clock) :: s.heard) = some (m, s.clock) := by
    unfold lastInfo
    rw [List.find?_cons_of_pos (by rw [hk]; simp)]
  have hsetting : lastSetting ((m, s.clock) :: s.heard) = lastSetting s.heard := by
    unfold lastSetting
    rw [List.find?_cons_of_neg (by rw [hk]; simp)]
  obtain ⟨hspeed, hwalking⟩ := s.walk.onWipInfo_spec m s.clock
  obtain ⟨speed, walking, hframe⟩ := s.walk.onWipInfo_frame m s.clock
  rw [hframe] at hspeed hwalking ⊢
  constructor
  · intro m' t hm
    rw [hinfo] at hm
    cases hm
    exact Int.le_refl _
  · rcases hspeed with hspeed | hspeed
    · exact .inr ⟨m, s.clock, hinfo, rfl, hspeed⟩
    · exact .inl hspeed
  · intro hw
    obtain ⟨hstops, hw | hw⟩ := hwalking hw
    · exact .heard hk hw
    · refine .later (h.walking hw) ?_
      rintro (⟨-, hs⟩ | ⟨hk', -⟩)
      · exact hstops hs
      · rw [hk] at hk'
        cases hk'
  · exact hsetting.trans h.setting

theorem heard_message {s : Session D} (h : Heard s) (m : Msg) : Heard (onMessage m s) := by
  unfold onMessage
  split
  next hk => exact heard_wipSetting h hk _
  next hk => exact heard_wipInfo h hk
  next => exact h

theorem heard_beforeOutput {s : Session D} (h : Heard s) (io : WalkIo Binary32) :
    Heard { s with walk := beforeOutput io s.clock s.walk } := by
  obtain ⟨sticks, waiting, poseHooks, resolved, speed, hbefore, hspeed⟩ :=
    beforeOutput_frame io s.clock s.walk
  rw [hbefore]
  exact h.frame rfl (Int.le_refl _) (hspeed.imp_right fun hs => ⟨hs.1, rfl⟩) rfl rfl rfl

/-- A speed that moves something is the clamped speed of a recent message. -/
theorem permitted_of_speed {s : Session D} (hh : Heard s) (io : WalkIo Binary32)
    (hspeed : (beforeOutput io s.clock s.walk).outputSpeed io.connected ≠ 0) :
    Permitted s io.connected := by
  have hliteral : ¬(literal 3 2 : Binary32) < 0 := by decide +kernel
  rcases (beforeOutput io s.clock s.walk).outputSpeed_cases io.connected with
    h0 | ⟨-, hopen, hconnected, hwalking, habove⟩
  · exact absurd h0 hspeed
  · obtain ⟨sticks, waiting, poseHooks, resolved, speed, hbefore, hvalue⟩ :=
      beforeOutput_frame io s.clock s.walk
    rw [hbefore] at hopen hwalking habove
    refine ⟨hopen, hconnected, hwalking.imp_right hh.walking, ?_⟩
    rcases hvalue with rfl | ⟨rfl, hrecent⟩
    · exact absurd habove hliteral
    · rcases hh.speed with h0 | ⟨m, t, hlast, rfl, hvalue⟩
      · dsimp only at habove
        rw [h0] at habove
        exact absurd habove hliteral
      · refine ⟨m, _, hlast, ?_, hrecent, ?_, Binary32.clamp_le_one _⟩
        · have := hh.past m _ hlast
          omega
        · rw [← hvalue]
          exact habove

section Output

variable [Arith Binary32]

theorem heard_step (e : Event) (s : Session D) (h : Heard s) : Heard (step e s) := by
  cases e with
  | wait elapsed =>
    exact h.frame rfl (by simp only [step]; omega) (.inr ⟨rfl, rfl⟩) rfl rfl rfl
  | create self c name boolean k =>
    exact h.frame rfl (Int.le_refl _) (.inr ⟨rfl, rfl⟩) rfl rfl rfl
  | update k v =>
    simp only [step]
    split
    · exact h
    · exact h.frame rfl (Int.le_refl _) (.inr ⟨rfl, rfl⟩) rfl rfl rfl
  | activate index c touch x y =>
    simp only [step, activate]
    split
    · exact h
    · split
      · exact h.frame rfl (Int.le_refl _) (.inr ⟨rfl, rfl⟩) rfl rfl rfl
      · exact h
  | deactivate => exact h.frame rfl (Int.le_refl _) (.inr ⟨rfl, rfl⟩) rfl rfl rfl
  | message m =>
    simp only [step]
    split
    · exact heard_message h m
    · exact h
  | proceed accepted =>
    simp only [step, proceed]
    split
    · exact h
    · exact h.frame rfl (Int.le_refl _) (.inr ⟨rfl, rfl⟩) rfl rfl rfl
    · unfold WalkInPlace.addTreadmill
      split <;> exact h.frame rfl (Int.le_refl _) (.inr ⟨rfl, rfl⟩) rfl rfl rfl
    · obtain ⟨t, w, hframe⟩ := s.walk.connectTreadmill_frame
      rw [hframe]
      exact h.frame rfl (Int.le_refl _) (.inr ⟨rfl, rfl⟩) rfl rfl rfl
  | updateWalkInPlace io =>
    simp only [step]
    split
    · rw [updateWalkInPlace_eq]
      split
      · obtain ⟨sticks, waiting, poseHooks, resolved, hresolved⟩ :=
          s.walk.resolveHooks_frame io s.clock
        rw [hresolved]
        exact h.frame rfl (Int.le_refl _) (.inr ⟨rfl, rfl⟩) rfl rfl rfl
      · have hbefore := heard_beforeOutput h io
        obtain ⟨t, w, hframe⟩ := (beforeOutput io s.clock s.walk).writeOutput_frame io
        rw [hframe]
        exact hbefore.frame rfl (Int.le_refl _) (.inr ⟨rfl, rfl⟩) rfl rfl rfl
    · exact h

/-- **An output step moves something only if it is permitted.** -/
theorem permitted_of_moves {s : Session D} (hr : Rig s.walk) (hx : Exclusive s) (hh : Heard s)
    (hpc : s.pc = .idle) (io : WalkIo Binary32) (hl : ¬s.walk.limited s.clock)
    (hm : Overrides (s.walk.updateWalkInPlace io s.clock) ∨
      TreadmillMoves (s.walk.updateWalkInPlace io s.clock)) : Permitted s io.connected := by
  have hrig : Rig (beforeOutput io s.clock s.walk) := hr.beforeOutput io s.clock
  have hexclusive := exclusive_beforeOutput hx io
  refine permitted_of_speed hh io ?_
  intro h0
  rw [updateWalkInPlace_eq, if_neg hl] at hm
  cases hu : (beforeOutput io s.clock s.walk).usesTreadmill with
  | true =>
    obtain ⟨hhooks, hmoves⟩ := writeOutput_treadmill hrig io hu
    rcases hm with ho | hm
    · unfold Overrides at ho
      rw [hhooks] at ho
      exact hexclusive.treadmill hpc hu ho
    · have hzero := hmoves hm
      rw [h0, Binary32.zero_beq_zero] at hzero
      cases hzero
  | false =>
    obtain ⟨hoverrides, hmoves⟩ := writeOutput_injection hrig io hu
    rcases hm with ho | hm
    · refine hoverrides ho ?_
      rw [h0]
      exact Binary32.zero_le_zero
    · exact hexclusive.injection hpc hu (hmoves hm)

/-! ## Every state of a session -/

/-- What walk-in-place keeps to. -/
structure Safe (s : Session D) : Prop where
  /-- A stick override and a moved treadmill never coexist. -/
  exclusive : ¬(Overrides s.walk ∧ TreadmillMoves s.walk)
  /-- An output step that the 10 ms limiter lets pass is permitted, or nothing moves after it. -/
  output : ∀ io, s.pc = .idle → ¬s.walk.limited s.clock →
    let s' := step (.updateWalkInPlace io) s
    Permitted s io.connected ∨ ¬Overrides s'.walk ∧ ¬TreadmillMoves s'.walk
  /-- A setting that changes the output has its handler go on to release the old one. -/
  handled : ∀ m, s.pc = .idle → m.kind = .wipSetting →
    (m.openWip, m.outputAsTreadmill) ≠ (s.walk.wipOpen, s.walk.wipAsTreadmill) →
      (step (.message m) s).pc = .release m
  /-- When that handler returns, no stick is overridden, and the treadmill moves only where the
  setting selects it. -/
  returned : ∀ m accepted, s.pc = .connect m →
    let s' := step (.proceed accepted) s
    ¬Overrides s'.walk ∧
      ((m.openWip && (m.outputAsTreadmill || !s.walk.world.hooks.installed)) = false →
        ¬TreadmillMoves s'.walk)

theorem safe {s : Session D} (hr : Rig s.walk) (hx : Exclusive s) (hh : Heard s) : Safe s where
  exclusive h := hx.exclusive h.1 h.2
  output io hpc hl := by
    simp only [step, hpc]
    by_cases hm : Overrides (s.walk.updateWalkInPlace io s.clock) ∨
        TreadmillMoves (s.walk.updateWalkInPlace io s.clock)
    · exact .inl (permitted_of_moves hr hx hh hpc io hl hm)
    · exact .inr (not_or.mp hm)
  handled m hpc hk hne := by
    simp only [step, hpc, onMessage, hk]
    obtain ⟨hand, poseHooks, ⟨-, hopen, has⟩ | ⟨ha, -⟩⟩ := s.walk.assignSetting_cases m
    · rw [hopen, has] at hne
      exact absurd rfl hne
    · rw [ha]
      rfl
  returned m accepted hpc := by
    obtain ⟨hopen, has⟩ := hx.handling m (.inr (.inr hpc))
    obtain ⟨hhooks, hzero⟩ := connectTreadmill_spec hr
    simp only [step, proceed, hpc]
    constructor
    · unfold Overrides
      rw [hhooks]
      exact hx.released m (.inr hpc)
    · intro hm
      refine hzero ?_
      unfold WalkInPlace.wantsTreadmill WalkInPlace.usesTreadmill
      rw [hopen, has]
      exact hm

variable [Zero D] [One D]

/-- The invariants hold in every state of every session. -/
theorem kept_run (installed : Bool) (driverInput : DriverInput) (poseHooks : PoseHooks.State D)
    (waistDirection : Bool) (clock : Int) (es : List Event) :
    let s := run step es
      (Session.init installed driverInput poseHooks waistDirection clock : Session D)
    Rig s.walk ∧ Exclusive s ∧ Heard s := by
  have hstep : ∀ (e : Event) (s : Session D), Rig s.walk ∧ Exclusive s ∧ Heard s →
      Rig (step e s).walk ∧ Exclusive (step e s) ∧ Heard (step e s) :=
    fun e s ⟨hr, hx, hh⟩ => ⟨rig_step e s hr, exclusive_step e s hr hx, heard_step e s hh⟩
  have hrig : Rig (Session.init installed driverInput poseHooks waistDirection clock :
      Session D).walk := by
    refine ⟨placed_init _ installed driverInput, ?_⟩
    intro t ht
    cases ht
  have hexclusive : Exclusive (Session.init installed driverInput poseHooks waistDirection clock :
      Session D) := by
    refine .of_idle rfl ?_ fun _ ho => absurd rfl ho
    rintro - ⟨t, ht, -⟩
    cases ht
  have hheard : Heard (Session.init installed driverInput poseHooks waistDirection clock :
      Session D) := by
    refine ⟨?_, .inl rfl, ?_, rfl⟩
    · intro m t hm
      cases hm
    · intro hw
      cases hw
  exact run_invariant hstep es ⟨hrig, hexclusive, hheard⟩

/-- **Walk-in-place is safe in every state of every session.** -/
theorem output_safe (installed : Bool) (driverInput : DriverInput) (poseHooks : PoseHooks.State D)
    (waistDirection : Bool) (clock : Int) (es : List Event) :
    Safe (run step es
      (Session.init installed driverInput poseHooks waistDirection clock : Session D)) := by
  obtain ⟨hr, hx, hh⟩ := kept_run (D := D) installed driverInput poseHooks waistDirection clock es
  exact safe hr hx hh

end Output

end Rebocap.Driver.WipSafety

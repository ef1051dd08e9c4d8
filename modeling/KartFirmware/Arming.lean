import KartFirmware.ControllerCore

/-!
# Arming and disarming

What one tick can do to the armed flag is said once, as one equation for each
member of the loop state that the START press and the inactivity timeout touch
(`arm_armed`, `arm_lastActUs`, `drive_lastActUs`, …).  Two invariants follow for
whole runs: `HoldInv` ties the hold timer and the press latch to the history of
the START button, and `ArmedInv` says why an armed kart is armed.

From these, a tick that does not brake is explained by a past arming press and
by the absence of every way to disarm since (`drive_requires_arming`), and the
only ticks that disarm without braking or without leaving `State::Run` are
those of the inactivity timeout (`disarm_brakes_iff`).

Nothing here uses a law of arithmetic on `F`, so all of it holds for `float`.
-/

set_option linter.unusedSectionVars false

namespace KartFirmware

variable {F : Type} [CFloat F]

/-! ### What one tick can do -/

/-- The START press is handled on this tick: it has just passed `arm_hold_ms`. -/
def LoopState.pressHandled (s : LoopState F) (cfg : KartConfig F) (i : CtrlInputs F) : Bool :=
  i.pad.start && decide (s.holdStartUs ≠ 0) && !s.startLatch && holdPassed cfg i.nowUs s.holdStartUs

section Tick

variable (s : LoopState F) (cfg : KartConfig F) (i : CtrlInputs F)

@[simp] theorem block_armed :
    (s.block i).armed = (decide (stopCause i = .none) && s.armed) := by
  by_cases hstop : stopCause i = .none <;> simp [LoopState.block, hstop]

@[simp] theorem block_holdStartUs : (s.block i).holdStartUs = s.holdStartUs := by
  simp only [LoopState.block]
  split_ifs <;> rfl

@[simp] theorem block_startLatch : (s.block i).startLatch = s.startLatch := by
  simp only [LoopState.block]
  split_ifs <;> rfl

@[simp] theorem block_lastActUs : (s.block i).lastActUs = s.lastActUs := by
  simp only [LoopState.block]
  split_ifs <;> rfl

@[simp] theorem block_pressHandled : (s.block i).pressHandled cfg i = s.pressHandled cfg i := by
  simp [LoopState.pressHandled]

theorem startPress_armed :
    (s.startPress cfg i).armed =
      if s.pressHandled cfg i then !s.armed && decide (stopCause i = .none) && centered i.pad
      else s.armed := by
  simp only [LoopState.startPress, LoopState.pressHandled]
  split_ifs <;> simp_all

theorem startPress_startLatch :
    (s.startPress cfg i).startLatch =
      (i.pad.start && (s.startLatch || s.pressHandled cfg i)) := by
  simp only [LoopState.startPress, LoopState.pressHandled]
  split_ifs <;> simp_all

theorem startPress_lastActUs :
    (s.startPress cfg i).lastActUs =
      if s.pressHandled cfg i && (s.startPress cfg i).armed then i.nowUs else s.lastActUs := by
  rw [startPress_armed]
  simp only [LoopState.startPress, LoopState.pressHandled]
  split_ifs <;> simp_all

theorem arm_armed :
    (s.arm cfg i).armed =
      (decide (stopCause i = .none) &&
        if s.pressHandled cfg i then !s.armed && centered i.pad else s.armed) := by
  rw [LoopState.arm, startPress_armed]
  by_cases hstop : stopCause i = .none <;> simp [hstop]

theorem arm_holdStartUs :
    (s.arm cfg i).holdStartUs =
      if i.pad.start then (if s.holdStartUs = 0 then i.nowUs else s.holdStartUs) else 0 := by
  simp only [LoopState.arm, LoopState.startPress, block_holdStartUs]
  split_ifs <;> simp

theorem arm_startLatch :
    (s.arm cfg i).startLatch = (i.pad.start && (s.startLatch || s.pressHandled cfg i)) := by
  rw [LoopState.arm, startPress_startLatch, block_startLatch, block_pressHandled]

/-- The arming press is a driving activity; nothing else in `arm` is. -/
theorem arm_lastActUs :
    (s.arm cfg i).lastActUs =
      if s.pressHandled cfg i && (s.arm cfg i).armed then i.nowUs else s.lastActUs := by
  rw [LoopState.arm, startPress_lastActUs, block_pressHandled, block_lastActUs]

@[simp] theorem arm_lastL : (s.arm cfg i).lastL = s.lastL := by
  simp only [LoopState.arm, LoopState.startPress, LoopState.block]
  split_ifs <;> rfl

@[simp] theorem arm_lastR : (s.arm cfg i).lastR = s.lastR := by
  simp only [LoopState.arm, LoopState.startPress, LoopState.block]
  split_ifs <;> rfl

/-! The three branches of the drive block. -/

theorem drive_disarmed (h : s.armed = false) :
    s.drive cfg i = (s, .brake .lockout) := by
  rw [LoopState.drive, if_neg (by simp [h])]

theorem drive_released (h : s.armed = true) (hdrive : i.pad.drive = false) :
    s.drive cfg i = (s, .brake .run) := by
  rw [LoopState.drive, if_pos h, if_neg (by simp [hdrive])]

theorem drive_held (h : s.armed = true) (hdrive : i.pad.drive = true) {l r : F}
    (hl : rampTick cfg (driveTarget cfg i.pad).1 s.lastL = l)
    (hr : rampTick cfg (driveTarget cfg i.pad).2 s.lastR = r) :
    s.drive cfg i =
      ({ s with
          lastActUs := if !stickIdle cfg i.pad then i.nowUs else s.lastActUs
          lastL := l
          lastR := r },
        { state := .run, fwd := forward cfg i.pad, turn := turning cfg i.pad, outL := l, outR := r
          mode := if !stickIdle cfg i.pad then .none else if rolling l r then .coast
            else .dynamic }) := by
  rw [LoopState.drive, if_pos h, if_pos hdrive, hl, hr]

@[simp] theorem drive_armed : (s.drive cfg i).1.armed = s.armed := by
  simp only [LoopState.drive]
  split_ifs <;> rfl

@[simp] theorem drive_holdStartUs : (s.drive cfg i).1.holdStartUs = s.holdStartUs := by
  simp only [LoopState.drive]
  split_ifs <;> rfl

@[simp] theorem drive_startLatch : (s.drive cfg i).1.startLatch = s.startLatch := by
  simp only [LoopState.drive]
  split_ifs <;> rfl

theorem drive_lastActUs :
    (s.drive cfg i).1.lastActUs =
      if s.armed && i.pad.drive && !stickIdle cfg i.pad then i.nowUs else s.lastActUs := by
  simp only [LoopState.drive]
  split_ifs <;> simp_all

theorem drive_state : (s.drive cfg i).2.state = if s.armed then .run else .lockout := by
  simp only [LoopState.drive]
  split_ifs <;> rfl

/-- Only an armed kart with A held is not braked. -/
theorem drive_mode_ne_dynamic (h : (s.drive cfg i).2.mode ≠ .dynamic) :
    s.armed = true ∧ i.pad.drive = true := by
  by_cases harmed : s.armed = true <;> by_cases hdrive : i.pad.drive = true
  · exact ⟨harmed, hdrive⟩
  · simp [LoopState.drive, harmed, hdrive] at h
  · simp [LoopState.drive, harmed] at h
  · simp [LoopState.drive, harmed] at h

theorem inactivity_armed :
    (s.inactivity cfg i).armed =
      (s.armed && !decide (i.nowUs - s.lastActUs > cfg.disarmS * 1000000)) := by
  simp only [LoopState.inactivity]
  cases harmed : s.armed <;> by_cases hlate : i.nowUs - s.lastActUs > cfg.disarmS * 1000000 <;>
    simp [harmed, hlate]

@[simp] theorem inactivity_holdStartUs : (s.inactivity cfg i).holdStartUs = s.holdStartUs := by
  simp only [LoopState.inactivity]
  split_ifs <;> rfl

@[simp] theorem inactivity_startLatch : (s.inactivity cfg i).startLatch = s.startLatch := by
  simp only [LoopState.inactivity]
  split_ifs <;> rfl

@[simp] theorem inactivity_lastActUs : (s.inactivity cfg i).lastActUs = s.lastActUs := by
  simp only [LoopState.inactivity]
  split_ifs <;> rfl

@[simp] theorem inactivity_lastL : (s.inactivity cfg i).lastL = s.lastL := by
  simp only [LoopState.inactivity]
  split_ifs <;> rfl

@[simp] theorem inactivity_lastR : (s.inactivity cfg i).lastR = s.lastR := by
  simp only [LoopState.inactivity]
  split_ifs <;> rfl

variable (mode : BrakeMode)

@[simp] theorem brakeReset_armed : (s.brakeReset mode).armed = s.armed := by
  cases mode <;> rfl

@[simp] theorem brakeReset_holdStartUs : (s.brakeReset mode).holdStartUs = s.holdStartUs := by
  cases mode <;> rfl

@[simp] theorem brakeReset_startLatch : (s.brakeReset mode).startLatch = s.startLatch := by
  cases mode <;> rfl

@[simp] theorem brakeReset_lastActUs : (s.brakeReset mode).lastActUs = s.lastActUs := by
  cases mode <;> rfl

end Tick

section Runs

variable (cfg₀ : KartConfig F) (w : Nat → TickIn F) (n : Nat)

def Driving : Prop :=
  (armAt cfg₀ w n).armed = true ∧ (w n).pad.drive = true ∧
    stickIdle (w n).cfg (w n).pad = false

instance : Decidable (Driving cfg₀ w n) := inferInstanceAs (Decidable (_ ∧ _ ∧ _))

theorem loopAt_succ_holdStartUs :
    (loopAt cfg₀ w (n + 1)).holdStartUs = (armAt cfg₀ w n).holdStartUs := by
  simp [loopAt_succ, driveAt]

theorem loopAt_succ_startLatch :
    (loopAt cfg₀ w (n + 1)).startLatch = (armAt cfg₀ w n).startLatch := by
  simp [loopAt_succ, driveAt]

theorem loopAt_succ_lastActUs :
    (loopAt cfg₀ w (n + 1)).lastActUs =
      if Driving cfg₀ w n then (w n).nowUs else (armAt cfg₀ w n).lastActUs := by
  rw [loopAt_succ, inactivity_lastActUs, brakeReset_lastActUs, driveAt, drive_lastActUs]
  by_cases hdriving : Driving cfg₀ w n
  · rw [if_pos hdriving, if_pos (by simpa [Driving, TickIn.inputs, and_assoc] using hdriving)]
    rfl
  · rw [if_neg hdriving, if_neg (by simpa [Driving, TickIn.inputs, and_assoc] using hdriving)]

theorem loopAt_succ_armed :
    (loopAt cfg₀ w (n + 1)).armed =
      ((armAt cfg₀ w n).armed && !decide ((w n).nowUs - (loopAt cfg₀ w (n + 1)).lastActUs >
        (w n).cfg.disarmS * 1000000)) := by
  simp only [loopAt_succ, driveAt, inactivity_armed, brakeReset_armed, drive_armed,
    inactivity_lastActUs, TickIn.inputs]

end Runs

/-! ### The history of the START button -/

section Press

variable (w : Nat → TickIn F)

def HeldFrom (j k : Nat) : Prop := ∀ m, j ≤ m → m ≤ k → (w m).pad.start = true

def BeginsPress (j : Nat) : Prop :=
  (w j).pad.start = true ∧ (j = 0 ∨ (w (j - 1)).pad.start = false)

def PastHold (j k : Nat) : Prop := (w k).nowUs - (w j).nowUs > (w k).cfg.armHoldMs * 1000

structure Pressing (j n : Nat) : Prop where
  lt : j < n
  begins : BeginsPress w j
  held : HeldFrom w j (n - 1)

variable {w}

theorem Pressing.start_pred {j n : Nat} (h : Pressing w j n) : (w (n - 1)).pad.start = true :=
  h.held (n - 1) (by have := h.lt; omega) (Nat.le_refl _)

/-- At most one press is held at a time. -/
theorem Pressing.unique {j j' n : Nat} (h : Pressing w j n) (h' : Pressing w j' n) : j = j' := by
  have key : ∀ {a b : Nat}, Pressing w a n → Pressing w b n → ¬ a < b := by
    intro a b ha hb hab
    rcases hb.begins.2 with hzero | hreleased
    · omega
    · have hheld := ha.held (b - 1) (by omega) (by have := hb.lt; omega)
      rw [hreleased] at hheld
      exact Bool.noConfusion hheld
  rcases Nat.lt_trichotomy j j' with hlt | heq | hgt
  · exact absurd hlt (key h h')
  · exact heq
  · exact absurd hgt (key h' h)

theorem Pressing.succ {j n : Nat} (h : Pressing w j n) (hn : (w n).pad.start = true) :
    Pressing w j (n + 1) := by
  refine ⟨Nat.lt_succ_of_lt h.lt, h.begins, ?_⟩
  intro m hjm hmn
  rcases Nat.lt_or_ge m n with hlt | hge
  · exact h.held m hjm (by omega)
  · have hm : m = n := by omega
    rw [hm]
    exact hn

theorem Pressing.of_begins {n : Nat} (h : BeginsPress w n) : Pressing w n (n + 1) := by
  refine ⟨Nat.lt_succ_self n, h, ?_⟩
  intro m hnm hmn
  have hm : m = n := by omega
  rw [hm]
  exact h.1

end Press

/-- The hold timer and the press latch before tick `n`, in terms of the history
of the START button. -/
structure HoldInv (w : Nat → TickIn F) (n : Nat) (s : LoopState F) : Prop where
  released : s.holdStartUs = 0 → n = 0 ∨ (w (n - 1)).pad.start = false
  pressed : s.holdStartUs ≠ 0 → ∃ j, Pressing w j n ∧ s.holdStartUs = (w j).nowUs
  latched : s.startLatch = true → ∃ j m, Pressing w j n ∧ j ≤ m ∧ m < n ∧ PastHold w j m

variable {cfg₀ : KartConfig F} {w : Nat → TickIn F}

theorem HoldInv.succ {n : Nat} (hclock : ClockOk w) (h : HoldInv w n (loopAt cfg₀ w n)) :
    HoldInv w (n + 1) (loopAt cfg₀ w (n + 1)) := by
  have hhold := loopAt_succ_holdStartUs cfg₀ w n
  have hlatch := loopAt_succ_startLatch cfg₀ w n
  rw [armAt, arm_holdStartUs] at hhold
  rw [armAt, arm_startLatch] at hlatch
  have hpos : (w n).nowUs ≠ 0 := by have := hclock.pos n; omega
  by_cases hstart : (w n).pad.start = true
  · rw [TickIn.inputs, if_pos hstart] at hhold
    -- the press held after this tick: a new one, or the one already held
    have hpress : ∃ j, Pressing w j (n + 1) ∧ (loopAt cfg₀ w (n + 1)).holdStartUs = (w j).nowUs ∧
        ((loopAt cfg₀ w n).holdStartUs ≠ 0 → (loopAt cfg₀ w n).holdStartUs = (w j).nowUs) := by
      by_cases hzero : (loopAt cfg₀ w n).holdStartUs = 0
      · rw [if_pos hzero] at hhold
        exact ⟨n, Pressing.of_begins ⟨hstart, h.released hzero⟩, hhold,
          fun hne => absurd hzero hne⟩
      · rw [if_neg hzero] at hhold
        obtain ⟨j, hj, hnow⟩ := h.pressed hzero
        exact ⟨j, hj.succ hstart, hhold.trans hnow, fun _ => hnow⟩
    obtain ⟨j, hj, hnow, hold⟩ := hpress
    refine ⟨?_, fun _ => ⟨j, hj, hnow⟩, ?_⟩
    · intro hzero
      have := hclock.pos j
      omega
    · intro hl
      rw [hlatch, Bool.and_eq_true, Bool.or_eq_true] at hl
      rcases hl.2 with hwas | hnew
      · obtain ⟨j', m, hj', hjm, hmn, hpast⟩ := h.latched hwas
        exact ⟨j', m, hj'.succ hstart, hjm, Nat.lt_succ_of_lt hmn, hpast⟩
      · simp only [LoopState.pressHandled, holdPassed, Bool.and_eq_true, decide_eq_true_eq] at hnew
        obtain ⟨⟨⟨-, hne⟩, -⟩, hpast⟩ := hnew
        rw [hold hne] at hpast
        exact ⟨j, n, hj, Nat.le_of_lt_succ hj.lt, Nat.lt_succ_self n, hpast⟩
  · have hreleased : (w n).pad.start = false := by simpa using hstart
    rw [TickIn.inputs, if_neg hstart] at hhold
    refine ⟨fun _ => Or.inr hreleased, fun hne => absurd hhold hne, ?_⟩
    intro hl
    rw [hlatch] at hl
    simp [TickIn.inputs, hreleased] at hl

theorem holdInv (cfg₀ : KartConfig F) (hclock : ClockOk w) (n : Nat) :
    HoldInv w n (loopAt cfg₀ w n) := by
  induction n with
  | zero =>
    refine ⟨fun _ => Or.inl rfl, fun hne => absurd rfl hne, ?_⟩
    intro hlatch
    exact Bool.noConfusion hlatch
  | succ n ih => exact ih.succ hclock

/-! ### Why an armed kart is armed -/

/-- Tick `k` arms the kart: START has been held since tick `j` past `arm_hold_ms`,
the stick is centred and nothing is in the way. -/
structure ArmsAt (cfg₀ : KartConfig F) (w : Nat → TickIn F) (j k : Nat) : Prop where
  disarmed : (loopAt cfg₀ w k).armed = false
  armed : (armAt cfg₀ w k).armed = true
  lt : j < k
  held : HeldFrom w j k
  past : PastHold w j k
  centered_x : CFloat.fabs (w k).pad.x < (hw.ARM_CENTER_MAX : F)
  centered_y : CFloat.fabs (w k).pad.y < (hw.ARM_CENTER_MAX : F)
  clear : stopCause (w k).inputs = .none

/-- Since tick `k`, and up to the point of tick `n` where `can_drive` is computed,
nothing has disarmed the kart. -/
structure ArmedSince (cfg₀ : KartConfig F) (w : Nat → TickIn F) (k n : Nat) : Prop where
  le : k ≤ n
  noStop : ∀ m, k ≤ m → m ≤ n → stopCause (w m).inputs = .none
  noPress : ∀ p m, k < p → p ≤ m → m ≤ n → BeginsPress w p → HeldFrom w p m → ¬ PastHold w p m
  active : ∀ m, k ≤ m → m < n → ∃ a, k ≤ a ∧ a ≤ m ∧ (a = k ∨ Driving cfg₀ w a) ∧
    (w m).nowUs - (w a).nowUs ≤ (w m).cfg.disarmS * 1000000

/-- The invariant of an armed kart at tick `n`, with the activity timer. -/
structure ArmedInv (cfg₀ : KartConfig F) (w : Nat → TickIn F) (k n : Nat) : Prop where
  arms : ∃ j, ArmsAt cfg₀ w j k
  since : ArmedSince cfg₀ w k n
  lastAct : ∃ a, k ≤ a ∧ a ≤ n ∧ (a = k ∨ Driving cfg₀ w a) ∧
    (armAt cfg₀ w n).lastActUs = (w a).nowUs

/-- The two ways to be armed where `can_drive` is computed. -/
theorem armAt_armed_cases {n : Nat} (h : (armAt cfg₀ w n).armed = true) :
    stopCause (w n).inputs = .none ∧
      (((loopAt cfg₀ w n).armed = true ∧
          (loopAt cfg₀ w n).pressHandled (w n).cfg (w n).inputs = false ∧
          (armAt cfg₀ w n).lastActUs = (loopAt cfg₀ w n).lastActUs) ∨
        ((loopAt cfg₀ w n).armed = false ∧
          (loopAt cfg₀ w n).pressHandled (w n).cfg (w n).inputs = true ∧
          centered (w n).pad = true ∧ (armAt cfg₀ w n).lastActUs = (w n).nowUs)) := by
  have hact := arm_lastActUs (loopAt cfg₀ w n) (w n).cfg (w n).inputs
  have harm := h
  rw [armAt, arm_armed, Bool.and_eq_true, decide_eq_true_eq] at harm
  obtain ⟨hstop, hcase⟩ := harm
  refine ⟨hstop, ?_⟩
  change (armAt cfg₀ w n).lastActUs = _ at hact
  by_cases hpress : (loopAt cfg₀ w n).pressHandled (w n).cfg (w n).inputs = true
  · rw [if_pos hpress, Bool.and_eq_true, Bool.not_eq_true'] at hcase
    change (armAt cfg₀ w n).lastActUs = if _ && (armAt cfg₀ w n).armed then _ else _ at hact
    rw [hpress, h] at hact
    exact Or.inr ⟨hcase.1, hpress, hcase.2, hact⟩
  · rw [if_neg hpress] at hcase
    have hnot : (loopAt cfg₀ w n).pressHandled (w n).cfg (w n).inputs = false := by
      simpa using hpress
    rw [hnot] at hact
    exact Or.inl ⟨hcase, hnot, hact⟩

/-- A press that passes its hold on tick `n` is handled on tick `n`, or was
already past its hold before. -/
theorem pastHold_handled (cfg₀ : KartConfig F) {n p : Nat} (hclock : ClockOk w)
    (hconfigs : ConfigsOk w) (hpn : p ≤ n) (hbegins : BeginsPress w p) (hheld : HeldFrom w p n)
    (hpast : PastHold w p n) :
    (loopAt cfg₀ w n).pressHandled (w n).cfg (w n).inputs = true ∨
      ∃ m, p ≤ m ∧ m < n ∧ PastHold w p m := by
  have hinv := holdInv cfg₀ hclock n
  have hstart : (w n).pad.start = true := hheld n hpn (Nat.le_refl n)
  have hlt : p < n := by
    rcases Nat.lt_or_ge p n with hlt | hge
    · exact hlt
    · -- on its first tick a press has lasted 0 µs
      have heq : p = n := by omega
      have hrange := (hconfigs n).armHoldMs
      simp only [PastHold, heq] at hpast
      omega
  have hpress : Pressing w p n := ⟨hlt, hbegins, fun m hpm hmn => hheld m hpm (by omega)⟩
  have hne : (loopAt cfg₀ w n).holdStartUs ≠ 0 := by
    intro hzero
    rcases hinv.released hzero with h0 | hreleased
    · omega
    · rw [hpress.start_pred] at hreleased
      exact Bool.noConfusion hreleased
  obtain ⟨j, hj, hnow⟩ := hinv.pressed hne
  rw [hj.unique hpress] at hnow
  by_cases hlatch : (loopAt cfg₀ w n).startLatch = true
  · obtain ⟨j', m, hj', hjm, hmn, hlong⟩ := hinv.latched hlatch
    rw [hj'.unique hpress] at hjm hlong
    exact Or.inr ⟨m, hjm, hmn, hlong⟩
  · left
    have hlatch' : (loopAt cfg₀ w n).startLatch = false := by simpa using hlatch
    have hpassed : holdPassed (w n).cfg (w n).nowUs (loopAt cfg₀ w n).holdStartUs = true := by
      rw [hnow]
      exact decide_eq_true hpast
    simp [LoopState.pressHandled, TickIn.inputs, hstart, hne, hlatch', hpassed]

theorem armedInv_of_press {n : Nat} (hclock : ClockOk w) (h : (armAt cfg₀ w n).armed = true)
    (hdisarmed : (loopAt cfg₀ w n).armed = false)
    (hpress : (loopAt cfg₀ w n).pressHandled (w n).cfg (w n).inputs = true)
    (hcentered : centered (w n).pad = true)
    (hact : (armAt cfg₀ w n).lastActUs = (w n).nowUs) : ArmedInv cfg₀ w n n := by
  have hstop := (armAt_armed_cases h).1
  simp only [LoopState.pressHandled, Bool.and_eq_true] at hpress
  obtain ⟨⟨⟨hstart, hne⟩, -⟩, hpassed⟩ := hpress
  have hpast := of_decide_eq_true hpassed
  obtain ⟨j, hj, hnow⟩ := (holdInv cfg₀ hclock n).pressed (of_decide_eq_true hne)
  rw [hnow] at hpast
  simp only [centered, Bool.and_eq_true, decide_eq_true_eq] at hcentered
  have harms : ArmsAt cfg₀ w j n :=
    { disarmed := hdisarmed, armed := h, lt := hj.lt, held := (hj.succ hstart).held
      past := hpast, centered_x := hcentered.1, centered_y := hcentered.2, clear := hstop }
  refine ⟨⟨j, harms⟩, ⟨Nat.le_refl n, ?_, ?_, ?_⟩,
    ⟨n, Nat.le_refl n, Nat.le_refl n, Or.inl rfl, hact⟩⟩
  · intro m hnm hmn
    have hm : m = n := by omega
    rw [hm]
    exact hstop
  · intro p m hnp hpm hmn
    omega
  · intro m hnm hmn
    omega

theorem ArmedInv.succ {k n : Nat} (hclock : ClockOk w) (hconfigs : ConfigsOk w)
    (hinv : ArmedInv cfg₀ w k n) (h : (armAt cfg₀ w (n + 1)).armed = true)
    (harmed : (loopAt cfg₀ w (n + 1)).armed = true)
    (hpress : (loopAt cfg₀ w (n + 1)).pressHandled (w (n + 1)).cfg (w (n + 1)).inputs = false)
    (hact : (armAt cfg₀ w (n + 1)).lastActUs = (loopAt cfg₀ w (n + 1)).lastActUs) :
    ArmedInv cfg₀ w k (n + 1) := by
  have hstop := (armAt_armed_cases h).1
  have hle := hinv.since.le
  -- the last activity before tick `n + 1`
  have hlast : ∃ a, k ≤ a ∧ a ≤ n ∧ (a = k ∨ Driving cfg₀ w a) ∧
      (loopAt cfg₀ w (n + 1)).lastActUs = (w a).nowUs := by
    have hsucc := loopAt_succ_lastActUs cfg₀ w n
    by_cases hdrive : Driving cfg₀ w n
    · rw [if_pos hdrive] at hsucc
      exact ⟨n, hle, Nat.le_refl n, Or.inr hdrive, hsucc⟩
    · rw [if_neg hdrive] at hsucc
      obtain ⟨a, hka, han, hcase, hnow⟩ := hinv.lastAct
      exact ⟨a, hka, han, hcase, hsucc.trans hnow⟩
  obtain ⟨a, hka, han, hcase, hnow⟩ := hlast
  refine ⟨hinv.arms, ⟨Nat.le_succ_of_le hle, ?_, ?_, ?_⟩,
    ⟨a, hka, Nat.le_succ_of_le han, hcase, hact.trans hnow⟩⟩
  · intro m hkm hmn
    rcases Nat.lt_or_ge m (n + 1) with hlt | hge
    · exact hinv.since.noStop m hkm (Nat.le_of_lt_succ hlt)
    · have hm : m = n + 1 := by omega
      rw [hm]
      exact hstop
  · intro p m hkp hpm hmn hbegins hheld hpast
    rcases Nat.lt_or_ge m (n + 1) with hlt | hge
    · exact hinv.since.noPress p m hkp hpm (Nat.le_of_lt_succ hlt) hbegins hheld hpast
    · -- on tick `n + 1` such a press would have been handled, now or before
      have hm : m = n + 1 := by omega
      subst hm
      rcases pastHold_handled cfg₀ hclock hconfigs hpm hbegins hheld hpast with
        hnow | ⟨m, hpm', hmn', hlong⟩
      · rw [hpress] at hnow
        exact Bool.noConfusion hnow
      · exact hinv.since.noPress p m hkp hpm' (Nat.le_of_lt_succ hmn') hbegins
          (fun x hpx hxm => hheld x hpx (by omega)) hlong
  · intro m hkm hmn
    rcases Nat.lt_or_ge m n with hlt | hge
    · exact hinv.since.active m hkm hlt
    · -- tick `n` did not time out
      have hm : m = n := by omega
      have hkept := loopAt_succ_armed cfg₀ w n
      rw [harmed, eq_comm, Bool.and_eq_true, Bool.not_eq_true', decide_eq_false_iff_not,
        hnow] at hkept
      rw [hm]
      exact ⟨a, hka, han, hcase, Int.not_lt.mp hkept.2⟩

/-- Every armed tick has an arming tick behind it and nothing that disarms since. -/
theorem armedInv (hclock : ClockOk w) (hconfigs : ConfigsOk w) (n : Nat)
    (h : (armAt cfg₀ w n).armed = true) : ∃ k, ArmedInv cfg₀ w k n := by
  induction n with
  | zero =>
    rcases (armAt_armed_cases h).2 with ⟨harmed, -, -⟩ | ⟨hd, hpress, hc, hact⟩
    · exact Bool.noConfusion harmed
    · exact ⟨0, armedInv_of_press hclock h hd hpress hc hact⟩
  | succ n ih =>
    rcases (armAt_armed_cases h).2 with ⟨harmed, hpress, hact⟩ | ⟨hd, hpress, hc, hact⟩
    · have hprev : (armAt cfg₀ w n).armed = true := by
        have hkept := loopAt_succ_armed cfg₀ w n
        rw [harmed, eq_comm, Bool.and_eq_true] at hkept
        exact hkept.1
      obtain ⟨k, hk⟩ := ih hprev
      exact ⟨k, hk.succ hclock hconfigs h harmed hpress hact⟩
    · exact ⟨n + 1, armedInv_of_press hclock h hd hpress hc hact⟩

/-! ### A run on the bench -/

/-- Shortest hold and timeout, no accel ramp, slowest decel ramp. -/
def benchCfg : KartConfig Float32 where
  dutyCapFrac := 1
  thrDeadzone := 0.06
  turnGain := 1
  mixType := 0
  mixExpoFwd := 0.5
  mixExpoTurn := 0.6
  accelPctS := 0
  decelPctS := 1
  motInvL := 0
  motInvR := 0
  motSwapLr := 0
  armHoldMs := 200
  disarmS := 5
  ledCount := 10
  ledBrightness := 64

def benchTick (nowUs : Int) (start drive : Bool) (y : Float32) : TickIn Float32 where
  nowUs := nowUs
  pad :=
    { x := 0, y := y, rx := 0, ry := y, connected := true, calibrated := true, estop := false
      start := start, drive := drive, lastReportUs := nowUs }
  cfg := benchCfg

/-- START held for 0.3 s, one tick of full stick with A held, then six seconds
later the stick centred with A still held. -/
def benchRun : Nat → TickIn Float32
  | 0 => benchTick 1 true false 0
  | 1 => benchTick 300001 true false 0
  | 2 => benchTick 302001 false true 1
  | n + 3 => benchTick (6302001 + 2000 * n) false true 0

theorem benchRun_clockOk : ClockOk benchRun := by
  refine ⟨by decide, ?_⟩
  intro n
  match n with
  | 0 => decide
  | 1 => decide
  | 2 => decide
  | n + 3 =>
    simp only [benchRun, benchTick]
    omega

theorem benchRun_configsOk : ConfigsOk benchRun := by
  have hcfg : benchCfg.InRange := by decide +kernel
  intro n
  match n with
  | 0 => exact hcfg
  | 1 => exact hcfg
  | 2 => exact hcfg
  | _ + 3 => exact hcfg

/-! ### Driving -/

theorem stopCause_none_iff {i : CtrlInputs F} :
    stopCause i = .none ↔ i.pad.connected = true ∧
      i.nowUs - i.pad.lastReportUs ≤ hw.PAD_HB_TIMEOUT_US ∧ i.pad.estop = false ∧
      i.pad.calibrated = true := by
  have hstale : padStale i = true ↔ i.pad.connected = true ∧
      hw.PAD_HB_TIMEOUT_US < i.nowUs - i.pad.lastReportUs := by
    simp [padStale]
  unfold stopCause
  split_ifs <;> simp_all
  omega

theorem tickAt_dynBrake_false {n : Nat} (h : (tickAt cfg₀ w n).out.dynBrake = false) :
    (armAt cfg₀ w n).armed = true ∧ (w n).pad.drive = true := by
  rw [tickAt_out] at h
  exact drive_mode_ne_dynamic (armAt cfg₀ w n) (w n).cfg (w n).inputs (of_decide_eq_false h)

/-- **A tick that does not brake.**  On that tick the pad is connected, fresh,
without e-stop and calibrated, and A is held; and some tick `k` armed the kart
after a START press begun before it, since which nothing has disarmed. -/
theorem drive_requires_arming (hclock : ClockOk w) (hconfigs : ConfigsOk w) (n : Nat)
    (h : (tickAt cfg₀ w n).out.dynBrake = false) :
    ((w n).pad.connected = true ∧
      (w n).nowUs - (w n).pad.lastReportUs ≤ hw.PAD_HB_TIMEOUT_US ∧
      (w n).pad.estop = false ∧ (w n).pad.calibrated = true ∧ (w n).pad.drive = true) ∧
    ∃ k j, ArmsAt cfg₀ w j k ∧ ArmedSince cfg₀ w k n := by
  obtain ⟨harmed, hdrive⟩ := tickAt_dynBrake_false h
  obtain ⟨hconn, hfresh, hestop, hcal⟩ := stopCause_none_iff.mp (armAt_armed_cases harmed).1
  obtain ⟨k, hinv⟩ := armedInv hclock hconfigs n harmed
  obtain ⟨j, harms⟩ := hinv.arms
  exact ⟨⟨hconn, hfresh, hestop, hcal, hdrive⟩, k, j, harms, hinv.since⟩

theorem drive_requires_arming_bench :
    ∃ k j, ArmsAt benchCfg benchRun j k ∧ ArmedSince benchCfg benchRun k 2 :=
  (drive_requires_arming benchRun_clockOk benchRun_configsOk 2 (by decide +kernel)).2

/-! ### Disarming -/

/-- The inactivity timeout fires on this tick: the kart is armed, nothing is in
the way, no START press has just passed its hold, the driver is not driving, and
the last driving activity is more than `disarm_s` old. -/
def LoopState.TimesOut (s : LoopState F) (cfg : KartConfig F) (i : CtrlInputs F) : Prop :=
  s.armed = true ∧ stopCause i = .none ∧ s.pressHandled cfg i = false ∧
    (i.pad.drive = false ∨ stickIdle cfg i.pad = true) ∧
    i.nowUs - s.lastActUs > cfg.disarmS * 1000000

/-- What disarming promises for one tick: a tick that publishes "not armed" has
braked, and the published state is `Run` exactly when the kart is armed and
nothing is in the way. -/
def DisarmBrakes (t : TickOut F) : Prop :=
  (t.tel.armed = false → t.out.dynBrake = true ∧ t.tel.brakeMode = .dynamic) ∧
    (t.tel.state = .run ↔ t.tel.armed = true ∧ t.tel.stop = .none)

/-- A tick disarms an armed kart after its outputs exactly when it times out. -/
theorem timesOut_iff (hconfigs : ConfigsOk w) (n : Nat) :
    (loopAt cfg₀ w n).TimesOut (w n).cfg (w n).inputs ↔
      (armAt cfg₀ w n).armed = true ∧ (loopAt cfg₀ w (n + 1)).armed = false := by
  have hkept := loopAt_succ_armed cfg₀ w n
  have hsucc := loopAt_succ_lastActUs cfg₀ w n
  have hrange := (hconfigs n).disarmS
  constructor
  · rintro ⟨harmed, hstop, hpress, hidle, hlate⟩
    have harm : (armAt cfg₀ w n).armed = true := by
      rw [armAt, arm_armed, hpress]
      simp [hstop, harmed]
    have hact : (armAt cfg₀ w n).lastActUs = (loopAt cfg₀ w n).lastActUs := by
      rw [armAt, arm_lastActUs, hpress]
      rfl
    have hnot : ¬ Driving cfg₀ w n := by
      rintro ⟨-, hdrive, hstick⟩
      rcases hidle with hreleased | hcentred
      · rw [TickIn.inputs, hdrive] at hreleased
        exact Bool.noConfusion hreleased
      · rw [TickIn.inputs, hstick] at hcentred
        exact Bool.noConfusion hcentred
    rw [if_neg hnot, hact] at hsucc
    have hlate' : (w n).nowUs - (loopAt cfg₀ w n).lastActUs > (w n).cfg.disarmS * 1000000 := hlate
    rw [hsucc, harm, decide_eq_true hlate'] at hkept
    exact ⟨harm, hkept⟩
  · rintro ⟨harm, hdisarmed⟩
    rw [hdisarmed, harm, Bool.true_and, eq_comm, Bool.not_eq_false', decide_eq_true_eq] at hkept
    have hnot : ¬ Driving cfg₀ w n := by
      intro hdriving
      rw [if_pos hdriving] at hsucc
      omega
    rw [if_neg hnot] at hsucc
    obtain ⟨hstop, hcases⟩ := armAt_armed_cases harm
    rcases hcases with ⟨harmed, hpress, hact⟩ | ⟨-, -, -, hact⟩
    · refine ⟨harmed, hstop, hpress, ?_, ?_⟩
      · by_cases hdrive : (w n).pad.drive = true
        · right
          by_contra hstick
          exact hnot ⟨harm, hdrive, by simpa [TickIn.inputs] using hstick⟩
        · left
          simpa [TickIn.inputs] using hdrive
      · rw [hsucc, hact] at hkept
        exact hkept
    · -- the tick that arms is itself an activity
      rw [hsucc, hact] at hkept
      omega

theorem disarmBrakes_tick_iff (hconfigs : ConfigsOk w) (n : Nat) :
    DisarmBrakes (tickAt cfg₀ w n) ↔
      ¬ (loopAt cfg₀ w n).TimesOut (w n).cfg (w n).inputs := by
  rw [timesOut_iff hconfigs]
  have hstate := drive_state (armAt cfg₀ w n) (w n).cfg (w n).inputs
  have hkept := loopAt_succ_armed cfg₀ w n
  change (driveAt cfg₀ w n).2.state = _ at hstate
  unfold DisarmBrakes
  rw [tickAt_tel]
  by_cases harm : (armAt cfg₀ w n).armed = true
  · have hstop := (armAt_armed_cases harm).1
    rw [if_pos harm] at hstate
    cases (loopAt cfg₀ w (n + 1)).armed <;> simp [hstate, harm, hstop]
  · have hdisarmed : (armAt cfg₀ w n).armed = false := by simpa using harm
    have hmode : (driveAt cfg₀ w n).2.mode = .dynamic := by
      by_contra hne
      exact harm (drive_mode_ne_dynamic _ _ _ hne).1
    rw [if_neg harm] at hstate
    rw [hdisarmed, Bool.false_and] at hkept
    simp [hstate, hdisarmed, hmode, hkept, tickAt_out, routeOutputs]

/-- **Disarming brakes at once** in a run exactly when no tick of the run is one
of the inactivity timeout. -/
theorem disarm_brakes_iff (hconfigs : ConfigsOk w) :
    (∀ n, DisarmBrakes (tickAt cfg₀ w n)) ↔
      ∀ n, ¬ (loopAt cfg₀ w n).TimesOut (w n).cfg (w n).inputs :=
  forall_congr' (disarmBrakes_tick_iff hconfigs)

theorem disarm_brakes_iff_bench :
    (∀ n, DisarmBrakes (tickAt benchCfg benchRun n)) ↔
      ∀ n, ¬ (loopAt benchCfg benchRun n).TimesOut (benchRun n).cfg (benchRun n).inputs :=
  disarm_brakes_iff benchRun_configsOk

/-- Six seconds after the last push of the stick the bench run disarms while its
command still slides down: the tick publishes "not armed" in state `Run`, and its
outputs are not the brake. -/
theorem coast_timeout_not_braked :
    ClockOk benchRun ∧ ConfigsOk benchRun ∧
      (tickAt benchCfg benchRun 3).tel.armed = false ∧
      (tickAt benchCfg benchRun 3).out.dynBrake = false ∧
      (tickAt benchCfg benchRun 3).tel.brakeMode = .coast ∧
      (tickAt benchCfg benchRun 3).tel.state = .run ∧
      ¬ DisarmBrakes (tickAt benchCfg benchRun 3) := by
  have harmed : (tickAt benchCfg benchRun 3).tel.armed = false := by decide +kernel
  have hbrake : (tickAt benchCfg benchRun 3).out.dynBrake = false := by decide +kernel
  refine ⟨benchRun_clockOk, benchRun_configsOk, harmed, hbrake, by decide +kernel,
    by decide +kernel, ?_⟩
  intro hpromise
  rw [(hpromise.1 harmed).1] at hbrake
  exact Bool.noConfusion hbrake

end KartFirmware

import KartFirmware.Arming

/-!
# With A released the stick has no effect

A is the dead man: with A released, and START not pressed, the stick values of a
tick influence neither the tick nor any later one.  As a property of two runs:
if their inputs agree up to the hidden stick (`HidesStick`), their outputs and
telemetry agree at every tick (`released_stick_unobservable`).  The relation
that is kept is equality of the whole loop state, so nothing is remembered.
-/

set_option linter.unusedSectionVars false

namespace KartFirmware

variable {F : Type} [CFloat F]

/-- Two ticks that differ at most in the stick, and only if A is released and
START is not pressed. -/
structure HidesStick (e e' : TickIn F) : Prop where
  nowUs : e.nowUs = e'.nowUs
  cfg : e.cfg = e'.cfg
  connected : e.pad.connected = e'.pad.connected
  calibrated : e.pad.calibrated = e'.pad.calibrated
  estop : e.pad.estop = e'.pad.estop
  start : e.pad.start = e'.pad.start
  drive : e.pad.drive = e'.pad.drive
  lastReportUs : e.pad.lastReportUs = e'.pad.lastReportUs
  stick : e.pad.drive = true ∨ e.pad.start = true →
    e.pad.x = e'.pad.x ∧ e.pad.y = e'.pad.y ∧ e.pad.rx = e'.pad.rx ∧ e.pad.ry = e'.pad.ry

theorem HidesStick.refl (e : TickIn F) : HidesStick e e :=
  ⟨rfl, rfl, rfl, rfl, rfl, rfl, rfl, rfl, fun _ => ⟨rfl, rfl, rfl, rfl⟩⟩

theorem HidesStick.eq {e e' : TickIn F} (h : HidesStick e e')
    (hpressed : e.pad.drive = true ∨ e.pad.start = true) : e = e' := by
  obtain ⟨hx, hy, hrx, hry⟩ := h.stick hpressed
  obtain ⟨hnow, hcfg, hconn, hcal, hestop, hstart, hdrive, hreport, -⟩ := h
  cases e with
  | mk now pad cfg =>
    cases e' with
    | mk now' pad' cfg' =>
      cases pad
      cases pad'
      simp_all

theorem HidesStick.padStale {e e' : TickIn F} (h : HidesStick e e') :
    padStale e.inputs = padStale e'.inputs := by
  rw [KartFirmware.padStale, KartFirmware.padStale]
  congr 1
  · exact h.connected
  · exact decide_eq_decide.mpr (by rw [TickIn.inputs, TickIn.inputs, h.nowUs, h.lastReportUs])

theorem HidesStick.stopCause {e e' : TickIn F} (h : HidesStick e e') :
    stopCause e.inputs = stopCause e'.inputs := by
  have hconn : e.inputs.pad.connected = e'.inputs.pad.connected := h.connected
  have hestop : e.inputs.pad.estop = e'.inputs.pad.estop := h.estop
  have hcal : e.inputs.pad.calibrated = e'.inputs.pad.calibrated := h.calibrated
  rw [KartFirmware.stopCause, KartFirmware.stopCause, hconn, hestop, hcal, h.padStale]

section Released

variable (s : LoopState F) {e e' : TickIn F}

theorem HidesStick.arm (h : HidesStick e e') (hstart : e.pad.start = false) :
    s.arm e.cfg e.inputs = s.arm e'.cfg e'.inputs := by
  have hstart' : e'.pad.start = false := h.start ▸ hstart
  simp only [LoopState.arm, LoopState.block, LoopState.startPress, h.stopCause]
  simp [TickIn.inputs, hstart, hstart']

theorem HidesStick.driveBlock (h : HidesStick e e') (hdrive : e.pad.drive = false) :
    s.drive e.cfg e.inputs = s.drive e'.cfg e'.inputs := by
  have hdrive' : e'.pad.drive = false := h.drive ▸ hdrive
  simp [LoopState.drive, TickIn.inputs, hdrive, hdrive']

theorem HidesStick.inactivity (h : HidesStick e e') :
    s.inactivity e.cfg e.inputs = s.inactivity e'.cfg e'.inputs := by
  have hnow : e.inputs.nowUs = e'.inputs.nowUs := h.nowUs
  rw [LoopState.inactivity, LoopState.inactivity, hnow, h.cfg]

end Released

/-- Two runs of the controller over inputs that agree up to hidden stick values
stay in lockstep, with equal loop states and equal outputs. -/
theorem hiddenStick_lockstep (cfg₀ : KartConfig F) :
    Mealy.Lockstep (KartController.machine cfg₀) (KartController.machine cfg₀) HidesStick
      (fun k k' => k.loop = k'.loop) (fun t t' => t = t') where
  init := rfl
  step := by
    intro k k' e e' hloop h
    by_cases hpressed : e.pad.drive = true ∨ e.pad.start = true
    · have heq := h.eq hpressed
      subst heq
      simp only [KartController.machine_step, hloop, and_self]
    · rw [not_or, Bool.not_eq_true, Bool.not_eq_true] at hpressed
      obtain ⟨hdrive, hstart⟩ := hpressed
      have hblock := h.driveBlock (k.loop.arm e.cfg e.inputs) hdrive
      rw [h.arm k.loop hstart] at hblock
      simp only [KartController.machine_step, LoopState.tick, ← hloop, h.arm k.loop hstart,
        hblock, h.inactivity, h.stopCause]
      simp only [h.cfg, h.start, and_self]

/-- **Dead-man noninterference.**  Stick values on ticks with A released and
START not pressed change no output and no telemetry, then or later. -/
theorem released_stick_unobservable {cfg₀ : KartConfig F} {w w' : Nat → TickIn F}
    (h : ∀ n, HidesStick (w n) (w' n)) (n : Nat) : tickAt cfg₀ w n = tickAt cfg₀ w' n :=
  (hiddenStick_lockstep cfg₀).outAt h n

/-- A run armed as on the bench, with the stick at `y` and A released from there
on. -/
def releasedRun (y : Float32) : Nat → TickIn Float32
  | 0 => benchTick 1 true false 0
  | 1 => benchTick 300001 true false 0
  | n + 2 => benchTick (302001 + 2000 * n) false false y

theorem released_stick_unobservable_bench :
    tickAt benchCfg (releasedRun 1) 2 = tickAt benchCfg (releasedRun (-1)) 2 := by
  refine released_stick_unobservable ?_ 2
  intro n
  match n with
  | 0 => exact HidesStick.refl _
  | 1 => exact HidesStick.refl _
  | n + 2 =>
    refine ⟨rfl, rfl, rfl, rfl, rfl, rfl, rfl, rfl, ?_⟩
    rintro (hdrive | hstart)
    · exact Bool.noConfusion hdrive
    · exact Bool.noConfusion hstart

end KartFirmware

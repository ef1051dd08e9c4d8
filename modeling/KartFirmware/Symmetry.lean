import KartFirmware.Arming
import KartFirmware.ExactControl

/-!
# Symmetries of the controller

In exact arithmetic the controller treats the wheels alike and both directions
alike.  A `StickSymmetry` is a map of the stick together with the map of the
wheel pair it induces, with one law for each place where `step` looks at the
stick or at the commands.  Every such symmetry keeps two runs in lockstep
(`StickSymmetry.lockstep`); the mirrored stick and the opposite stick are two of
them (`mirrorStick`, `oppositeStick`).
-/

namespace KartFirmware

/-! ### Stick symmetries -/

def PadInputs.withStick (p : PadInputs ℚ) (x y : ℚ) : PadInputs ℚ := { p with x := x, y := y }

/-- A map of the stick, the map of the wheel pair it induces, and the laws that
make the controller equivariant under them. -/
structure StickSymmetry where
  stickX : ℚ → ℚ
  stickY : ℚ → ℚ
  wheels : ℚ × ℚ → ℚ × ℚ
  centered_iff : ∀ p : PadInputs ℚ, centered (p.withStick (stickX p.x) (stickY p.y)) = centered p
  turning_eq : ∀ {cfg : KartConfig ℚ}, cfg.InRangeAnyMix → ∀ p : PadInputs ℚ,
    turning cfg (p.withStick (stickX p.x) (stickY p.y)) = stickX (turning cfg p)
  forward_eq : ∀ {cfg : KartConfig ℚ}, cfg.InRangeAnyMix → ∀ p : PadInputs ℚ,
    forward cfg (p.withStick (stickX p.x) (stickY p.y)) = stickY (forward cfg p)
  fabs_stickX : ∀ a, CFloat.fabs (stickX a) = CFloat.fabs a
  fabs_stickY : ∀ a, CFloat.fabs (stickY a) = CFloat.fabs a
  stick_zero : stickX 0 = 0 ∧ stickY 0 = 0
  mixer_eq : ∀ (type : Int) (fwd turn : ℚ) (cfg : KartConfig ℚ),
    mixerFor type (stickY fwd) (stickX turn) cfg = wheels (mixerFor type fwd turn cfg)
  wheels_zero : wheels (0, 0) = (0, 0)
  ramp_eq : ∀ (cfg : KartConfig ℚ) (t c : ℚ × ℚ),
    (rampTick cfg (wheels t).1 (wheels c).1, rampTick cfg (wheels t).2 (wheels c).2) =
      wheels (rampTick cfg t.1 c.1, rampTick cfg t.2 c.2)
  rolling_iff : ∀ c : ℚ × ℚ, rolling (wheels c).1 (wheels c).2 = rolling c.1 c.2

namespace StickSymmetry

variable (g : StickSymmetry)

def tickIn (e : TickIn ℚ) : TickIn ℚ :=
  { e with pad := e.pad.withStick (g.stickX e.pad.x) (g.stickY e.pad.y) }

def loop (s : LoopState ℚ) : LoopState ℚ :=
  { s with
    lastL := (g.wheels (s.lastL, s.lastR)).1
    lastR := (g.wheels (s.lastL, s.lastR)).2 }

def driveResult (d : DriveResult ℚ) : DriveResult ℚ :=
  { d with
    fwd := g.stickY d.fwd
    turn := g.stickX d.turn
    outL := (g.wheels (d.outL, d.outR)).1
    outR := (g.wheels (d.outL, d.outR)).2 }

def telemetry (t : CtrlTelemetry ℚ) : CtrlTelemetry ℚ :=
  { t with
    fwd := g.stickY t.fwd
    turn := g.stickX t.turn
    outL := (g.wheels (t.outL, t.outR)).1
    outR := (g.wheels (t.outL, t.outR)).2 }

theorem tickIn_cfg (e : TickIn ℚ) : (g.tickIn e).cfg = e.cfg := rfl

theorem driveResult_mode (d : DriveResult ℚ) : (g.driveResult d).mode = d.mode := rfl

theorem driveResult_brake (state : State) : g.driveResult (.brake state) = .brake state := by
  have hwheels : g.wheels ((0 : ℚ), (0 : ℚ)) = (0, 0) := g.wheels_zero
  apply DriveResult.ext
  · rfl
  · exact g.stick_zero.2
  · exact g.stick_zero.1
  · exact congrArg Prod.fst hwheels
  · exact congrArg Prod.snd hwheels
  · rfl

section Tick

variable (e : TickIn ℚ) (s : LoopState ℚ)

theorem stopCause_eq : stopCause (g.tickIn e).inputs = stopCause e.inputs := rfl

theorem arm_eq : (g.loop s).arm e.cfg (g.tickIn e).inputs = g.loop (s.arm e.cfg e.inputs) := by
  have hcentered : centered (g.tickIn e).inputs.pad = centered e.inputs.pad :=
    g.centered_iff e.pad
  have hpress : (g.loop s).pressHandled e.cfg (g.tickIn e).inputs =
      s.pressHandled e.cfg e.inputs := rfl
  have harmed : ((g.loop s).arm e.cfg (g.tickIn e).inputs).armed =
      (s.arm e.cfg e.inputs).armed := by
    rw [arm_armed, arm_armed, stopCause_eq, hpress, hcentered]
    rfl
  apply LoopState.ext
  · exact harmed
  · rw [arm_holdStartUs]
    exact (arm_holdStartUs s e.cfg e.inputs).symm
  · rw [arm_lastActUs, harmed, hpress]
    exact (arm_lastActUs s e.cfg e.inputs).symm
  · rw [arm_startLatch, hpress]
    exact (arm_startLatch s e.cfg e.inputs).symm
  · rw [arm_lastL, loop, loop, arm_lastL, arm_lastR]
  · rw [arm_lastR, loop, loop, arm_lastL, arm_lastR]

theorem brakeReset_eq (mode : BrakeMode) :
    (g.loop s).brakeReset mode = g.loop (s.brakeReset mode) := by
  have hwheels : g.wheels ((0 : ℚ), (0 : ℚ)) = (0, 0) := g.wheels_zero
  cases mode with
  | none => rfl
  | coast => rfl
  | dynamic =>
    apply LoopState.ext
    · rfl
    · rfl
    · rfl
    · rfl
    · exact (congrArg Prod.fst hwheels).symm
    · exact (congrArg Prod.snd hwheels).symm

theorem inactivity_eq :
    (g.loop s).inactivity e.cfg (g.tickIn e).inputs = g.loop (s.inactivity e.cfg e.inputs) := by
  apply LoopState.ext
  · rw [inactivity_armed]
    exact (inactivity_armed s e.cfg e.inputs).symm
  · rw [inactivity_holdStartUs]
    exact (inactivity_holdStartUs s e.cfg e.inputs).symm
  · rw [inactivity_lastActUs]
    exact (inactivity_lastActUs s e.cfg e.inputs).symm
  · rw [inactivity_startLatch]
    exact (inactivity_startLatch s e.cfg e.inputs).symm
  · rw [inactivity_lastL, loop, loop, inactivity_lastL, inactivity_lastR]
  · rw [inactivity_lastR, loop, loop, inactivity_lastL, inactivity_lastR]

variable {e} (hcfg : e.cfg.InRangeAnyMix)

include hcfg

theorem stickIdle_eq : stickIdle e.cfg (g.tickIn e).pad = stickIdle e.cfg e.pad := by
  rw [stickIdle, stickIdle, tickIn, g.forward_eq hcfg, g.turning_eq hcfg, g.fabs_stickX,
    g.fabs_stickY]

theorem driveTarget_eq :
    driveTarget e.cfg (g.tickIn e).pad = g.wheels (driveTarget e.cfg e.pad) := by
  rw [driveTarget, driveTarget, g.stickIdle_eq hcfg]
  split_ifs
  · exact g.wheels_zero.symm
  · rw [tickIn, g.forward_eq hcfg, g.turning_eq hcfg, g.mixer_eq]

theorem drive_eq :
    (g.loop s).drive e.cfg (g.tickIn e).inputs =
      (g.loop (s.drive e.cfg e.inputs).1, g.driveResult (s.drive e.cfg e.inputs).2) := by
  cases harmed : s.armed with
  | false =>
    rw [drive_disarmed s _ _ harmed, drive_disarmed (g.loop s) _ _ harmed, g.driveResult_brake]
  | true =>
    cases hdrive : e.pad.drive with
    | false =>
      rw [drive_released s _ _ harmed hdrive, drive_released (g.loop s) _ _ harmed hdrive,
        g.driveResult_brake]
    | true =>
      -- the wheels of the mapped run are the mapped wheels
      have hramp := g.ramp_eq e.cfg (driveTarget e.cfg e.pad) (s.lastL, s.lastR)
      rw [← g.driveTarget_eq hcfg] at hramp
      have hrolling := g.rolling_iff
        (rampTick e.cfg (driveTarget e.cfg e.pad).1 s.lastL,
          rampTick e.cfg (driveTarget e.cfg e.pad).2 s.lastR)
      have hidle : stickIdle e.cfg (g.tickIn e).inputs.pad = stickIdle e.cfg e.inputs.pad :=
        g.stickIdle_eq hcfg
      have hfwd : forward e.cfg (g.tickIn e).inputs.pad = g.stickY (forward e.cfg e.inputs.pad) :=
        g.forward_eq hcfg e.pad
      have hturn : turning e.cfg (g.tickIn e).inputs.pad = g.stickX (turning e.cfg e.inputs.pad) :=
        g.turning_eq hcfg e.pad
      rw [drive_held s e.cfg e.inputs harmed hdrive rfl rfl,
        drive_held (g.loop s) e.cfg (g.tickIn e).inputs harmed hdrive
          (congrArg Prod.fst hramp) (congrArg Prod.snd hramp), hidle, hfwd, hturn]
      simp only [hrolling]
      rfl

theorem tick_eq :
    ((g.loop s).tick (g.tickIn e)).1 = g.loop (s.tick e).1 ∧
      ((g.loop s).tick (g.tickIn e)).2.tel = g.telemetry (s.tick e).2.tel := by
  have hdrive := g.drive_eq (s.arm e.cfg e.inputs) hcfg
  rw [← g.arm_eq] at hdrive
  have hnext : ((g.loop s).tick (g.tickIn e)).1 = g.loop (s.tick e).1 := by
    simp only [LoopState.tick, tickIn_cfg, hdrive, driveResult_mode, brakeReset_eq, inactivity_eq]
  have harmed : ((g.loop s).tick (g.tickIn e)).1.armed = (s.tick e).1.armed := by
    rw [hnext]
    rfl
  simp only [LoopState.tick, tickIn_cfg, hdrive, driveResult_mode] at harmed
  refine ⟨hnext, ?_⟩
  simp only [LoopState.tick, tickIn_cfg, hdrive, driveResult_mode, harmed]
  rfl

end Tick

/-- The mapped run stays in lockstep with the run. -/
theorem lockstep (cfg₀ : KartConfig ℚ) :
    Mealy.Lockstep (KartController.machine cfg₀) (KartController.machine cfg₀)
      (fun e e' => e.cfg.InRangeAnyMix ∧ e' = g.tickIn e) (fun k k' => k'.loop = g.loop k.loop)
      (fun t t' => t'.tel = g.telemetry t.tel) where
  init := by
    apply LoopState.ext
    · rfl
    · rfl
    · rfl
    · rfl
    · exact (congrArg Prod.fst g.wheels_zero).symm
    · exact (congrArg Prod.snd g.wheels_zero).symm
  step := by
    rintro k k' e e' hloop ⟨hcfg, rfl⟩
    simp only [KartController.machine_step, hloop]
    exact g.tick_eq k.loop hcfg

end StickSymmetry

/-! ### The mirrored and the opposite stick -/

theorem turning_neg {cfg : KartConfig ℚ} (h : cfg.InRangeAnyMix) (p : PadInputs ℚ) (y : ℚ) :
    turning cfg (p.withStick (-p.x) y) = -turning cfg p :=
  deadzone_neg h.thrDeadzone.1

theorem forward_neg {cfg : KartConfig ℚ} (h : cfg.InRangeAnyMix) (p : PadInputs ℚ) (x : ℚ) :
    forward cfg (p.withStick x (-p.y)) = -forward cfg p :=
  deadzone_neg h.thrDeadzone.1

/-- Left for right: the wheels are exchanged. -/
def mirrorStick : StickSymmetry where
  stickX := (- ·)
  stickY := id
  wheels := Prod.swap
  centered_iff p := by
    rw [centered, centered]
    change (decide (CFloat.fabs (-p.x) < _) && _) = _
    rw [fabs_neg]
    rfl
  turning_eq h p := turning_neg h p _
  forward_eq _ _ := rfl
  fabs_stickX := fabs_neg
  fabs_stickY _ := rfl
  stick_zero := ⟨neg_zero, rfl⟩
  mixer_eq := mixerFor_neg_turn
  wheels_zero := rfl
  ramp_eq _ _ _ := rfl
  rolling_iff _ := Bool.or_comm _ _

/-- The stick through its center: both commands change their sign. -/
def oppositeStick : StickSymmetry where
  stickX := (- ·)
  stickY := (- ·)
  wheels c := (-c.1, -c.2)
  centered_iff p := by
    simp only [centered, PadInputs.withStick, fabs_neg]
  turning_eq h p := turning_neg h p _
  forward_eq h p := forward_neg h p _
  fabs_stickX := fabs_neg
  fabs_stickY := fabs_neg
  stick_zero := ⟨neg_zero, neg_zero⟩
  mixer_eq := mixerFor_neg
  wheels_zero := by rw [neg_zero]
  ramp_eq cfg t c := by rw [rampTick_neg, rampTick_neg]
  rolling_iff c := by simp only [rolling, fabs_neg]

def TickIn.negX (e : TickIn ℚ) : TickIn ℚ := { e with pad := { e.pad with x := -e.pad.x } }

def TickIn.negXY (e : TickIn ℚ) : TickIn ℚ :=
  { e with pad := { e.pad with x := -e.pad.x, y := -e.pad.y } }

/-- **Symmetry of whole runs.**  Negating `x` in every tick negates the turn and
exchanges the wheels; negating `x` and `y` negates both commands.  Nothing else
in the telemetry changes. -/
theorem stick_symmetry {w : Nat → TickIn ℚ} (cfg₀ : KartConfig ℚ)
    (hcfg : ∀ n, (w n).cfg.InRangeAnyMix) (n : Nat) :
    (tickAt cfg₀ (fun m => (w m).negX) n).tel =
        { (tickAt cfg₀ w n).tel with
          turn := -(tickAt cfg₀ w n).tel.turn
          outL := (tickAt cfg₀ w n).tel.outR
          outR := (tickAt cfg₀ w n).tel.outL } ∧
      (tickAt cfg₀ (fun m => (w m).negXY) n).tel =
        { (tickAt cfg₀ w n).tel with
          fwd := -(tickAt cfg₀ w n).tel.fwd
          turn := -(tickAt cfg₀ w n).tel.turn
          outL := -(tickAt cfg₀ w n).tel.outL
          outR := -(tickAt cfg₀ w n).tel.outR } :=
  ⟨(mirrorStick.lockstep cfg₀).outAt (fun m => ⟨hcfg m, rfl⟩) n,
    (oppositeStick.lockstep cfg₀).outAt (fun m => ⟨hcfg m, rfl⟩) n⟩

theorem stick_symmetry_exactRun :
    (tickAt exactCfg (fun m => (exactRun { exactCfg with mixType := 7 } m).negX) 2).tel =
      { (tickAt exactCfg (exactRun { exactCfg with mixType := 7 }) 2).tel with
        turn := -(tickAt exactCfg (exactRun { exactCfg with mixType := 7 }) 2).tel.turn
        outL := (tickAt exactCfg (exactRun { exactCfg with mixType := 7 }) 2).tel.outR
        outR := (tickAt exactCfg (exactRun { exactCfg with mixType := 7 }) 2).tel.outL } :=
  (stick_symmetry (w := exactRun { exactCfg with mixType := 7 }) exactCfg
    (fun _ => exactCfg_inRangeAnyMix 7) 2).1

end KartFirmware

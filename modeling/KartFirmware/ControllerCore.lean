import KartFirmware.ConfigParams
import KartFirmware.ControlMath
import KartFirmware.Mealy

/-!
# The control core

`KartController` and its `step`, the business logic of one control tick.  The
body of `step` is cut where the source cuts it with comments: the Stop cause,
the START press, the drive block, the reset of the remembered commands, the
output routing and the inactivity timeout.  `LoopState` holds the members under
"Loop state"; the clock is an `Int` in µs.

A tick of a host is `setPad`, `setConfig`, `tick` (as in
`EspController::tickOnce`), and `KartController.machine` is the machine whose
steps are such ticks and whose outputs are the `CtrlOutputs` of the tick and the
telemetry published by it.  A tick before which no configuration is pushed is one
that pushes the configuration in force again.
-/

set_option linter.unusedSectionVars false

namespace KartFirmware

/-! ### Inputs, outputs, state -/

structure PadInputs (F : Type) where
  x : F
  y : F
  rx : F
  ry : F
  connected : Bool
  calibrated : Bool
  estop : Bool
  start : Bool
  drive : Bool
  lastReportUs : Int

structure CtrlInputs (F : Type) where
  nowUs : Int
  pad : PadInputs F

/-- What the driver channels receive: the phase short-circuit, or the capped
signed commands. -/
structure CtrlOutputs (F : Type) where
  dynBrake : Bool
  outL : F
  outR : F
  cap : Nat
deriving DecidableEq

structure CtrlTelemetry (F : Type) where
  state : State
  stop : Stop
  fwd : F
  turn : F
  outL : F
  outR : F
  brakeMode : BrakeMode
  armed : Bool
  btnStart : Bool
deriving DecidableEq

@[ext] structure LoopState (F : Type) where
  armed : Bool
  holdStartUs : Int
  lastActUs : Int
  startLatch : Bool
  lastL : F
  lastR : F

structure KartController (F : Type) where
  cfg : KartConfig F
  pad : PadInputs F
  tel : CtrlTelemetry F
  loop : LoopState F

variable {F : Type} [CFloat F]

/-! ### Why the kart will not drive -/

/-- "Connected" but no HID report for `PAD_HB_TIMEOUT_US`. -/
def padStale (i : CtrlInputs F) : Bool :=
  i.pad.connected && decide (i.nowUs - i.pad.lastReportUs > hw.PAD_HB_TIMEOUT_US)

def stopCause (i : CtrlInputs F) : Stop :=
  if !i.pad.connected then .padLost
  else if padStale i then .padStale
  else if i.pad.estop then .eStop
  else if !i.pad.calibrated then .notCalibrated
  else .none

/-! ### Arming -/

def centered (p : PadInputs F) : Bool :=
  decide (CFloat.fabs p.x < hw.ARM_CENTER_MAX) && decide (CFloat.fabs p.y < hw.ARM_CENTER_MAX)

/-- The START press has been held past `arm_hold_ms`. -/
def holdPassed (cfg : KartConfig F) (nowUs holdStartUs : Int) : Bool :=
  decide (nowUs - holdStartUs > cfg.armHoldMs * 1000)

/-- Anything in the way disarms. -/
def LoopState.block (s : LoopState F) (i : CtrlInputs F) : LoopState F :=
  if stopCause i ≠ .none then { s with armed := false } else s

/-- The START press: it begins, is handled once it is long enough, or ends. -/
def LoopState.startPress (s : LoopState F) (cfg : KartConfig F) (i : CtrlInputs F) :
    LoopState F :=
  if i.pad.start then
    if s.holdStartUs = 0 then { s with holdStartUs := i.nowUs }
    else if !s.startLatch && holdPassed cfg i.nowUs s.holdStartUs then
      if !s.armed && stopCause i = .none && centered i.pad then
        { s with startLatch := true, armed := true, lastActUs := i.nowUs }
      else { s with startLatch := true, armed := false }
    else s
  else { s with holdStartUs := 0, startLatch := false }

/-- The loop state where the source computes `can_drive`. -/
def LoopState.arm (s : LoopState F) (cfg : KartConfig F) (i : CtrlInputs F) : LoopState F :=
  (s.block i).startPress cfg i

/-! ### Driving -/

def stdMax (a b : F) : F := if a < b then b else a

def capFrac (cfg : KartConfig F) : F := ctl.clampf cfg.dutyCapFrac 0 1

def dutyCap (cfg : KartConfig F) : Nat :=
  CFloat.toUInt32 (CFloat.ofInt hw.PWM_MAX * capFrac cfg)

/-- A rate in % of full duty per second, in command units per second. -/
def commandRate (cfg : KartConfig F) (pctS : Int) : F :=
  (CFloat.ofInt pctS / 100) * (1 / stdMax (capFrac cfg) 0.05)

def forward (cfg : KartConfig F) (p : PadInputs F) : F := ctl.deadzone p.y cfg.thrDeadzone
def turning (cfg : KartConfig F) (p : PadInputs F) : F := ctl.deadzone p.x cfg.thrDeadzone

def stickIdle (cfg : KartConfig F) (p : PadInputs F) : Bool :=
  decide (CFloat.fabs (forward cfg p) < 1e-3) && decide (CFloat.fabs (turning cfg p) < 1e-3)

/-- The commands the stick asks for: 0 when it is centred, else the mixed stick. -/
def driveTarget (cfg : KartConfig F) (p : PadInputs F) : F × F :=
  if stickIdle cfg p then (0, 0)
  else mixerFor cfg.mixType (forward cfg p) (turning cfg p) cfg

def rampTick (cfg : KartConfig F) (target current : F) : F :=
  ctl.ramp target current (commandRate cfg cfg.accelPctS) (commandRate cfg cfg.decelPctS)
    hw.CTRL_DT_S

def rolling (l r : F) : Bool :=
  decide (CFloat.fabs l > 1e-4) || decide (CFloat.fabs r > 1e-4)

@[ext] structure DriveResult (F : Type) where
  state : State
  fwd : F
  turn : F
  outL : F
  outR : F
  mode : BrakeMode

def DriveResult.brake (state : State) : DriveResult F where
  state := state
  fwd := 0
  turn := 0
  outL := 0
  outR := 0
  mode := .dynamic

@[simp] theorem DriveResult.brake_mode (state : State) :
    (DriveResult.brake state : DriveResult F).mode = .dynamic := rfl

def LoopState.drive (s : LoopState F) (cfg : KartConfig F) (i : CtrlInputs F) :
    LoopState F × DriveResult F :=
  if s.armed then
    if i.pad.drive then
      let idle := stickIdle cfg i.pad
      let l := rampTick cfg (driveTarget cfg i.pad).1 s.lastL
      let r := rampTick cfg (driveTarget cfg i.pad).2 s.lastR
      let mode := if !idle then .none else if rolling l r then .coast else .dynamic
      ({ s with
          lastActUs := if !idle then i.nowUs else s.lastActUs
          lastL := l
          lastR := r },
        { state := .run, fwd := forward cfg i.pad, turn := turning cfg i.pad,
          outL := l, outR := r, mode := mode })
    else (s, .brake .run)
  else (s, .brake .lockout)

/-- Dynamic braking forgets the commands: the next drive starts from standstill. -/
def LoopState.brakeReset (s : LoopState F) (mode : BrakeMode) : LoopState F :=
  if mode = .dynamic then { s with lastL := 0, lastR := 0 } else s

def LoopState.inactivity (s : LoopState F) (cfg : KartConfig F) (i : CtrlInputs F) :
    LoopState F :=
  if s.armed && decide (i.nowUs - s.lastActUs > cfg.disarmS * 1000000) then
    { s with armed := false }
  else s

/-! ### Outputs -/

/-- The motor sign of each wheel, then the routing of the wheels to the channels. -/
def routeOutputs (cfg : KartConfig F) (d : DriveResult F) : CtrlOutputs F :=
  let wheelL := if cfg.motInvL ≠ 0 then -d.outL else d.outL
  let wheelR := if cfg.motInvR ≠ 0 then -d.outR else d.outR
  let swap := cfg.motSwapLr ≠ 0
  { dynBrake := decide (d.mode = .dynamic)
    outL := if swap then wheelR else wheelL
    outR := if swap then wheelL else wheelR
    cap := dutyCap cfg }

namespace KartController

def step (k : KartController F) (i : CtrlInputs F) : KartController F × CtrlOutputs F :=
  let s := k.loop.arm k.cfg i
  let r := s.drive k.cfg i
  let d := r.2
  let s := (r.1.brakeReset d.mode).inactivity k.cfg i
  let tel : CtrlTelemetry F :=
    { state := d.state, stop := stopCause i, fwd := d.fwd, turn := d.turn, outL := d.outL
      outR := d.outR, brakeMode := d.mode, armed := s.armed, btnStart := i.pad.start }
  ({ k with tel := tel, loop := s }, routeOutputs k.cfg d)

/-- The constructor; `cfg` is what `setDefaults` leaves in `m_cfg`. -/
def new (cfg : KartConfig F) : KartController F where
  cfg := cfg
  pad :=
    { x := 0, y := 0, rx := 0, ry := 0, connected := false, calibrated := false
      estop := false, start := false, drive := false, lastReportUs := 0 }
  tel :=
    { state := .lockout, stop := .none, fwd := 0, turn := 0, outL := 0, outR := 0
      brakeMode := .dynamic, armed := false, btnStart := false }
  loop :=
    { armed := false, holdStartUs := 0, lastActUs := 0, startLatch := false
      lastL := 0, lastR := 0 }

def setConfig (k : KartController F) (cfg : KartConfig F) : KartController F :=
  { k with cfg := cfg }

def setPad (k : KartController F) (pad : PadInputs F) : KartController F :=
  { k with pad := pad }

def tick (k : KartController F) (nowUs : Int) : KartController F × CtrlOutputs F :=
  k.step { nowUs := nowUs, pad := k.pad }

end KartController

/-! ### Runs -/

structure TickIn (F : Type) where
  nowUs : Int
  pad : PadInputs F
  cfg : KartConfig F

def TickIn.inputs (e : TickIn F) : CtrlInputs F := { nowUs := e.nowUs, pad := e.pad }

structure TickOut (F : Type) where
  out : CtrlOutputs F
  tel : CtrlTelemetry F
deriving DecidableEq

namespace KartController

def machine (cfg₀ : KartConfig F) : Mealy.Machine (KartController F) (TickIn F) (TickOut F) where
  init := new cfg₀
  step k e :=
    let r := ((k.setPad e.pad).setConfig e.cfg).tick e.nowUs
    (r.1, { out := r.2, tel := r.1.tel })

end KartController

/-- One host tick as it acts on the loop state, with what it returns and
publishes.  `KartController.machine_step` says that the controller does this. -/
def LoopState.tick (s : LoopState F) (e : TickIn F) : LoopState F × TickOut F :=
  let r := (s.arm e.cfg e.inputs).drive e.cfg e.inputs
  let s := (r.1.brakeReset r.2.mode).inactivity e.cfg e.inputs
  (s,
    { out := routeOutputs e.cfg r.2
      tel :=
        { state := r.2.state, stop := stopCause e.inputs, fwd := r.2.fwd, turn := r.2.turn
          outL := r.2.outL, outR := r.2.outR, brakeMode := r.2.mode, armed := s.armed
          btnStart := e.pad.start } })

/-- A host tick leaves nothing of the earlier controller but its loop state. -/
theorem KartController.machine_step (cfg₀ : KartConfig F) (k : KartController F) (e : TickIn F) :
    (machine cfg₀).step k e =
      ({ cfg := e.cfg, pad := e.pad, tel := (k.loop.tick e).2.tel, loop := (k.loop.tick e).1 },
        (k.loop.tick e).2) := rfl

def ClockOk (w : Nat → TickIn F) : Prop :=
  0 < (w 0).nowUs ∧ ∀ n, (w n).nowUs < (w (n + 1)).nowUs

def ConfigsOk (w : Nat → TickIn F) : Prop := ∀ n, (w n).cfg.InRange

theorem ClockOk.lt {w : Nat → TickIn F} (h : ClockOk w) {m n : Nat} (hmn : m < n) :
    (w m).nowUs < (w n).nowUs := by
  induction hmn with
  | refl => exact h.2 m
  | step _ ih => exact Int.lt_trans ih (h.2 _)

theorem ClockOk.pos {w : Nat → TickIn F} (h : ClockOk w) (n : Nat) : 0 < (w n).nowUs := by
  rcases Nat.eq_zero_or_pos n with rfl | hn
  · exact h.1
  · exact Int.lt_trans h.1 (h.lt hn)

def loopAt (cfg₀ : KartConfig F) (w : Nat → TickIn F) (n : Nat) : LoopState F :=
  ((KartController.machine cfg₀).stateAt w n).loop

def tickAt (cfg₀ : KartConfig F) (w : Nat → TickIn F) (n : Nat) : TickOut F :=
  (KartController.machine cfg₀).outAt w n

/-- The loop state of tick `n` where `can_drive` is computed. -/
def armAt (cfg₀ : KartConfig F) (w : Nat → TickIn F) (n : Nat) : LoopState F :=
  (loopAt cfg₀ w n).arm (w n).cfg (w n).inputs

/-- The result of the drive block of tick `n`. -/
def driveAt (cfg₀ : KartConfig F) (w : Nat → TickIn F) (n : Nat) :
    LoopState F × DriveResult F :=
  (armAt cfg₀ w n).drive (w n).cfg (w n).inputs

section Runs

variable (cfg₀ : KartConfig F) (w : Nat → TickIn F) (n : Nat)

theorem loopAt_succ :
    loopAt cfg₀ w (n + 1) =
      ((driveAt cfg₀ w n).1.brakeReset (driveAt cfg₀ w n).2.mode).inactivity
        (w n).cfg (w n).inputs := rfl

theorem tickAt_out : (tickAt cfg₀ w n).out = routeOutputs (w n).cfg (driveAt cfg₀ w n).2 := rfl

theorem tickAt_tel :
    (tickAt cfg₀ w n).tel =
      { state := (driveAt cfg₀ w n).2.state, stop := stopCause (w n).inputs
        fwd := (driveAt cfg₀ w n).2.fwd, turn := (driveAt cfg₀ w n).2.turn
        outL := (driveAt cfg₀ w n).2.outL, outR := (driveAt cfg₀ w n).2.outR
        brakeMode := (driveAt cfg₀ w n).2.mode, armed := (loopAt cfg₀ w (n + 1)).armed
        btnStart := (w n).pad.start } := rfl

end Runs

end KartFirmware

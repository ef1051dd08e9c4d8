import KartFirmware.EvLog

/-!
# The control loop on the ESP

`EspController::tickOnce`: it hands the gamepad and the configuration to the core,
runs one core tick, asks the rumble advisor of `advisors.hpp`, pushes an event on
an edge of the armed flag and publishes the status.  The members `m_in` and
`m_pad_in` are written and read in one tick and are locals here; the loop time
peaks, which nothing here reads, are left out.  The gamepad is read in one piece.

The loop runs the core in lockstep (`EspController.lockstep`), so what is proved of
the core's runs holds of what the loop sends to the motors and publishes; and the
events it pushes are the edges of the published armed flag (`eventAt`).
-/

namespace KartFirmware

/-- The code under which a cause is persisted. -/
def Stop.code : Stop → UInt32
  | .none => 0
  | .padLost => 1
  | .padStale => 2
  | .eStop => 3
  | .notCalibrated => 4

/-! ### The rumble advisor -/

structure RumbleCmd where
  active : Bool
  strong : UInt8
  weak : UInt8
  durationMs : UInt16
deriving DecidableEq

structure RumbleAdvisor where
  armedPrev : Bool
  estopPrev : Bool
  blockUs : Int

variable {F : Type} [CFloat F]

def pushing (pad : PadInputs F) : Bool :=
  decide (CFloat.fabs pad.rx > hw.PUSH_MIN) || decide (CFloat.fabs pad.ry > hw.PUSH_MIN)

/-- `RumbleAdvisor::update`: the last of the three commands that apply wins. -/
def RumbleAdvisor.update (a : RumbleAdvisor) (t : CtrlTelemetry F) (pad : PadInputs F)
    (nowUs : Int) : RumbleAdvisor × RumbleCmd :=
  let cmd : RumbleCmd := ⟨false, 0, 0, 0⟩
  let cmd := if t.armed && !a.armedPrev then ⟨true, 90, 160, 220⟩ else cmd
  let cmd := if pad.estop && !a.estopPrev then ⟨true, 255, 255, 450⟩ else cmd
  let blocked := pushing pad && decide (t.state ≠ .run) &&
    decide (nowUs - a.blockUs > hw.RUMBLE_BLOCK_INTERVAL_US)
  ({ armedPrev := t.armed
     estopPrev := pad.estop
     blockUs := if blocked then nowUs else a.blockUs },
    if blocked then ⟨true, 220, 220, 250⟩ else cmd)

/-! ### One tick -/

structure EspController (F : Type) where
  ctrl : KartController F
  rumble : RumbleAdvisor
  evArmed : Bool

structure EspIn (F : Type) where
  input : Input F
  cfg : KartConfig F
  nowUs : Int

/-- What one tick does: the motor command, the vibration, the event that is pushed,
the status that is published. -/
structure EspTick (F : Type) where
  out : CtrlOutputs F
  rumble : RumbleCmd
  event : Option (evlog.Ev × UInt32)
  status : KartStatus F

variable [CSqrt F]

/-- `pushPad`: what the core is told of the gamepad. -/
def Input.padInputs (s : Input F) : PadInputs F where
  x := s.get.x
  y := s.get.y
  rx := s.get.rx
  ry := s.get.ry
  connected := s.get.connected
  calibrated := s.calibrated
  estop := s.get.estop
  start := s.get.start
  drive := s.get.drive
  lastReportUs := s.lastReportUs

def EspIn.tickIn (i : EspIn F) : TickIn F where
  nowUs := i.nowUs
  pad := i.input.padInputs
  cfg := i.cfg

/-- `publish`: the telemetry and the display fields of the gamepad. -/
def publish (t : CtrlTelemetry F) (p : PadState F) : KartStatus F where
  state := t.state
  stop := t.stop
  fwd := t.fwd
  turn := t.turn
  btnStart := t.btnStart
  btnDrive := p.drive
  outL := t.outL
  outR := t.outR
  brakeMode := t.brakeMode
  arming := t.armed
  estop := p.estop
  padConn := p.connected
  padX := p.rx
  padY := p.ry
  padCx := p.x
  padCy := p.y
  padZl := p.zl
  padZr := p.zr
  padRx2 := p.rx2
  padRy2 := p.ry2
  padBtns := p.buttons

def armedEdge (evArmed : Bool) (t : CtrlTelemetry F) : Option (evlog.Ev × UInt32) :=
  if t.armed && !evArmed then some (.arm, 0)
  else if !t.armed && evArmed then some (.disarm, t.stop.code)
  else none

namespace EspController

def tickOnce (e : EspController F) (i : EspIn F) : EspController F × EspTick F :=
  let r := ((e.ctrl.setPad i.input.padInputs).setConfig i.cfg).tick i.nowUs
  let t := r.1.tel
  let rumble := e.rumble.update t i.input.padInputs i.nowUs
  ({ ctrl := r.1, rumble := rumble.1, evArmed := t.armed },
    { out := r.2
      rumble := rumble.2
      event := armedEdge e.evArmed t
      status := publish t i.input.get })

def new (cfg : KartConfig F) : EspController F where
  ctrl := .new cfg
  rumble := { armedPrev := false, estopPrev := false, blockUs := 0 }
  evArmed := false

def machine (cfg₀ : KartConfig F) : Mealy.Machine (EspController F) (EspIn F) (EspTick F) where
  init := new cfg₀
  step := tickOnce

/-! ### Runs -/

/-- The loop runs the core, sends its outputs to the motors and publishes its
telemetry. -/
theorem lockstep (cfg₀ : KartConfig F) :
    Mealy.Lockstep (machine cfg₀) (KartController.machine cfg₀)
      (fun i e => i.tickIn = e) (fun e k => e.ctrl = k)
      (fun o t => o.out = t.out ∧ ∃ p, o.status = publish t.tel p) where
  init := rfl
  step := by
    rintro e _ i _ rfl rfl
    exact ⟨rfl, rfl, i.input.get, rfl⟩

variable (cfg₀ : KartConfig F) (w : Nat → EspIn F)

def coreRun (n : Nat) : TickIn F := (w n).tickIn

theorem coreRun_tickIn (n : Nat) : (w n).tickIn = coreRun w n := rfl

theorem outAt_arming (n : Nat) :
    ((machine cfg₀).outAt w n).status.arming = (loopAt cfg₀ (coreRun w) (n + 1)).armed := by
  obtain ⟨p, hp⟩ := ((lockstep cfg₀).outAt (coreRun_tickIn w) n).2
  rw [hp]
  exact congrArg CtrlTelemetry.armed (tickAt_tel cfg₀ (coreRun w) n)

theorem stateAt_evArmed (n : Nat) :
    ((machine cfg₀).stateAt w n).evArmed = (loopAt cfg₀ (coreRun w) n).armed := by
  cases n with
  | zero => rfl
  | succ n => exact outAt_arming cfg₀ w n

/-- The events are the edges of the armed flag, and a `Disarm` carries the cause
its tick publishes. -/
theorem eventAt (n : Nat) :
    ((machine cfg₀).outAt w n).event =
      armedEdge (loopAt cfg₀ (coreRun w) n).armed (tickAt cfg₀ (coreRun w) n).tel := by
  have hstate := (lockstep cfg₀).stateAt (coreRun_tickIn w) n
  rw [← stateAt_evArmed cfg₀ w n]
  unfold tickAt Mealy.Machine.outAt
  rw [← hstate]
  rfl

end EspController

end KartFirmware

import KartFirmware.Haptics
import KartFirmware.Rollover
import Mathlib.Analysis.SpecialFunctions.Complex.Arg

/-!
# Scenarios

`SimController` of `sim/sim_controller.hpp` and `runScenario` of `sim/scenarios.hpp`: a
scripted gamepad, the controller of the firmware with its output callback, the advisor, and
the vehicle; and the aggregates of a run, which the asserts are about.  `stepOnce` is cut
before the physics: `SimController.command` returns the arguments of `Vehicle::step`.

A script is a function of the time.  Name and description of a scenario, which the loop does
not read, and the frame hook, which observes it, are left out.

The vehicle of a scenario makes a run of the vehicle machine (`simAt_veh`), and the
aggregates say whether something has shown up in one of its steps.  So what is proved about
all runs of the vehicle is true of the aggregates (`rollover_measures_agree`).
-/

set_option linter.unusedSectionVars false

namespace KartFirmware

namespace sim

variable {F : Type} [CFloat F]

/-! ### The scripted gamepad -/

structure PadCmd (F : Type) where
  x : F
  y : F
  start : Bool
  estop : Bool
  drive : Bool
  connected : Bool
  /-- The link is up but no report arrives any more, if false. -/
  reports : Bool
  /-- The main relay is open, if false: the controller does not run. -/
  sysPower : Bool

/-- The member initializers: the scripted driver holds A unless a scenario says otherwise. -/
def PadCmd.default : PadCmd F where
  x := 0
  y := 0
  start := false
  estop := false
  drive := true
  connected := true
  reports := true
  sysPower := true

/-! ### The simulated host -/

structure SimController (F : Type) where
  ctrl : KartController F
  cmd : PadCmd F
  rumble : RumbleAdvisor
  nowUs : Int
  lastReportUs : Int
  outL : F
  outR : F
  cap : Nat
  brakeOut : Bool
  calibrated : Bool
  rumbles : Nat

namespace SimController

/-- `cfg` is what `setDefaults` leaves in the controller. -/
def new (cfg : KartConfig F) (calibrated : Bool) : SimController F where
  ctrl := .new cfg
  cmd := .default
  rumble := .new
  nowUs := 0
  lastReportUs := 0
  outL := 0
  outR := 0
  cap := hw.PWM_MAX.toNat
  brakeOut := true
  calibrated := calibrated
  rumbles := 0

/-- The script speaks in commands: raw is calibrated. -/
def pad (s : SimController F) : PadInputs F where
  x := s.cmd.x
  y := s.cmd.y
  rx := s.cmd.x
  ry := s.cmd.y
  connected := s.cmd.connected
  calibrated := s.calibrated
  estop := s.cmd.estop
  start := s.cmd.start
  drive := s.cmd.drive
  lastReportUs := s.lastReportUs

/-- The callback of the controller. -/
def applyOutputs (s : SimController F) (out : CtrlOutputs F) : SimController F :=
  { s with
    brakeOut := out.dynBrake
    outL := if out.dynBrake then 0 else out.outL
    outR := if out.dynBrake then 0 else out.outR
    cap := if !out.dynBrake then out.cap else s.cap }

/-- A tick of the controller with power on, and the advisor after it. -/
def tickPowered (s : SimController F) (cfg : KartConfig F) : SimController F :=
  let s := if s.cmd.connected && s.cmd.reports then { s with lastReportUs := s.nowUs } else s
  let r := ((s.ctrl.setPad s.pad).setConfig cfg).tick s.nowUs
  let cue := s.rumble.update r.1.tel s.pad s.nowUs
  { s.applyOutputs r.2 with
    ctrl := r.1
    rumble := cue.1
    rumbles := if cue.2.active then s.rumbles + 1 else s.rumbles }

/-- `stepOnce` up to the physics, at the time `t` of the vehicle. -/
def command (s : SimController F) (script : F → PadCmd F) (cfg : KartConfig F) (t : F) :
    SimController F × StepCmd F :=
  let s :=
    { s with nowUs := s.nowUs + CFloat.toUInt32 (hw.CTRL_DT_S * 1e6 : F), cmd := script t }
  if s.cmd.sysPower then
    let s := s.tickPowered cfg
    (s,
      { mode := if s.brakeOut then .brake else .drive
        outL := s.outL
        outR := s.outR
        cap := s.cap
        dt := hw.CTRL_DT_S })
  else (s, { mode := .float, outL := 0, outR := 0, cap := 0, dt := hw.CTRL_DT_S })

end SimController

/-! ### Scenarios -/

structure Scenario (F : Type) where
  durationS : F
  cfg : Option (KartConfig F → KartConfig F)
  veh : Option (Vehicle F → Vehicle F)
  pad : F → PadCmd F
  calibrated : Bool

structure RunResult (F : Type) where
  minTipMargin : F
  maxV : F
  maxAlat : F
  finalV : F
  coastDist : F
  everArmed : Bool
  everBlocked : Bool
  wheelLifted : Bool
  tipped : Bool
  finalStop : Stop
  tFirstBlocked : F
  tDisarmedAfter : F
  rumbles : Nat

def RunResult.default : RunResult F where
  minTipMargin := 1e9
  maxV := 0
  maxAlat := 0
  finalV := 0
  coastDist := -1
  everArmed := false
  everBlocked := false
  wheelLifted := false
  tipped := false
  finalStop := .none
  tFirstBlocked := -1
  tDisarmedAfter := -1
  rumbles := 0

/-- The variables of the loop of `runScenario`. -/
structure SimRun (F : Type) where
  veh : Vehicle F
  ctrl : SimController F
  r : RunResult F
  wasArmed : Bool
  wasPowered : Bool
  xCut : F
  yCut : F

def stdMin (a b : F) : F := if b < a then b else a

variable [CSqrt F]

/-- The aggregates after a step of the vehicle. -/
def RunResult.observe (r : RunResult F) (veh : Vehicle F) (t : CtrlTelemetry F) (wasArmed : Bool)
    (coastDist : F) : RunResult F :=
  let blocked := decide (t.stop ≠ .none)
  { r with
    minTipMargin := stdMin r.minTipMargin veh.tipMargin
    maxV := stdMax r.maxV (CFloat.fabs veh.v)
    maxAlat := stdMax r.maxAlat (CFloat.fabs veh.aLat)
    everArmed := r.everArmed || t.armed
    wheelLifted := r.wheelLifted || decide (veh.liftSide ≠ 0)
    tipped := r.tipped || veh.tipped
    everBlocked := r.everBlocked || blocked
    tFirstBlocked := if blocked && decide (r.tFirstBlocked < 0) then veh.t else r.tFirstBlocked
    tDisarmedAfter :=
      if wasArmed && !t.armed && decide (r.tDisarmedAfter < 0) then veh.t else r.tDisarmedAfter
    coastDist := coastDist }

namespace SimRun

/-- What the loop does after `stepOnce`. -/
def record (s : SimRun F) (ctrl : SimController F) (veh : Vehicle F) : SimRun F :=
  let t := ctrl.ctrl.tel
  let powered := ctrl.cmd.sysPower
  let cut := s.wasPowered && !powered
  let xCut := if cut then veh.x else s.xCut
  let yCut := if cut then veh.y else s.yCut
  let dx := veh.x - xCut
  let dy := veh.y - yCut
  let coastDist := if !powered then CSqrt.sqrt (dx * dx + dy * dy) else s.r.coastDist
  { veh := veh
    ctrl := ctrl
    r := s.r.observe veh t s.wasArmed coastDist
    wasArmed := t.armed
    wasPowered := powered
    xCut := xCut
    yCut := yCut }

variable [CTrig F]

/-- One turn of the loop. -/
def tick (sc : Scenario F) (cfg : KartConfig F) (s : SimRun F) : SimRun F :=
  let r := s.ctrl.command sc.pad cfg s.veh.t
  s.record r.1 (s.veh.step r.2)

end SimRun

namespace Scenario

/-- The vehicle that the loop starts with. -/
def vehicle (sc : Scenario F) : Vehicle F :=
  match sc.veh with
  | some set => set (.new .default)
  | none => .new .default

def config (sc : Scenario F) (defaults : KartConfig F) : KartConfig F :=
  match sc.cfg with
  | some set => set defaults
  | none => defaults

/-- A negative duration gives no steps. -/
def steps (sc : Scenario F) : Nat := CFloat.toUInt32 (sc.durationS * CFloat.ofInt hw.CTRL_HZ)

def start (sc : Scenario F) (defaults : KartConfig F) : SimRun F where
  veh := sc.vehicle
  ctrl := .new defaults sc.calibrated
  r := .default
  wasArmed := false
  wasPowered := true
  xCut := 0
  yCut := 0

variable [CTrig F]

/-- The variables after `n` turns of the loop. -/
def simAt (sc : Scenario F) (defaults : KartConfig F) (n : Nat) : SimRun F :=
  (SimRun.tick sc (sc.config defaults))^[n] (sc.start defaults)

end Scenario

/-- `defaults` is what `setDefaults` writes. -/
def runScenario [CTrig F] (sc : Scenario F) (defaults : KartConfig F) : RunResult F :=
  let s := sc.simAt defaults sc.steps
  { s.r with
    finalV := s.veh.v
    finalStop := s.ctrl.ctrl.tel.stop
    rumbles := s.ctrl.rumbles }

/-! ### The run of the vehicle -/

namespace Scenario

variable [CTrig F] (sc : Scenario F) (defaults : KartConfig F)

/-- What the vehicle is told in step `n`. -/
def cmdAt (n : Nat) : StepCmd F :=
  ((sc.simAt defaults n).ctrl.command sc.pad (sc.config defaults)
    (sc.simAt defaults n).veh.t).2

theorem simAt_succ (n : Nat) :
    sc.simAt defaults (n + 1) =
      SimRun.tick sc (sc.config defaults) (sc.simAt defaults n) :=
  Function.iterate_succ_apply' ..

/-- The vehicle of a scenario makes a run of the vehicle machine. -/
theorem simAt_veh (n : Nat) :
    (sc.simAt defaults n).veh = (Vehicle.machine sc.vehicle).stateAt (sc.cmdAt defaults) n := by
  induction n with
  | zero => rfl
  | succ n ih =>
    rw [simAt_succ, Mealy.Machine.stateAt_succ, ← ih]
    rfl

theorem cmdAt_dt (n : Nat) : (sc.cmdAt defaults n).dt = hw.CTRL_DT_S := by
  unfold cmdAt SimController.command
  dsimp only
  split_ifs <;> rfl

theorem wheelLifted_iff (n : Nat) :
    (sc.simAt defaults n).r.wheelLifted = true ↔
      ∃ k < n, (sc.simAt defaults (k + 1)).veh.liftSide ≠ 0 := by
  refine Mealy.latch_iff (P := fun n => (sc.simAt defaults n).r.wheelLifted = true)
    (Q := fun n => (sc.simAt defaults n).veh.liftSide ≠ 0) Bool.false_ne_true (fun n => ?_) n
  rw [simAt_succ]
  simp only [SimRun.tick, SimRun.record, RunResult.observe, Bool.or_eq_true, decide_eq_true_eq]

theorem tipped_iff (n : Nat) :
    (sc.simAt defaults n).r.tipped = true ↔
      ∃ k < n, (sc.simAt defaults (k + 1)).veh.tipped = true := by
  refine Mealy.latch_iff (P := fun n => (sc.simAt defaults n).r.tipped = true)
    (Q := fun n => (sc.simAt defaults n).veh.tipped = true) Bool.false_ne_true (fun n => ?_) n
  rw [simAt_succ]
  simp only [SimRun.tick, SimRun.record, RunResult.observe, Bool.or_eq_true]

end Scenario

/-! ### In exact arithmetic -/

section Exact

variable [CTrig ℝ] (sc : Scenario ℝ) (defaults : KartConfig ℝ)

theorem stdMin_lt_zero (a b : ℝ) : stdMin a b < 0 ↔ a < 0 ∨ b < 0 := by
  have hmin : stdMin a b = if b < a then b else a := rfl
  rw [hmin]
  split_ifs with hba
  · exact ⟨Or.inr, fun h => h.elim hba.trans id⟩
  · exact ⟨Or.inl, fun h => h.elim id (not_lt.mp hba).trans_lt⟩

theorem Scenario.minTipMargin_iff (n : Nat) :
    (sc.simAt defaults n).r.minTipMargin < 0 ↔
      ∃ k < n, (sc.simAt defaults (k + 1)).veh.tipMargin < 0 := by
  refine Mealy.latch_iff (P := fun n => (sc.simAt defaults n).r.minTipMargin < 0)
    (Q := fun n => (sc.simAt defaults n).veh.tipMargin < 0) ?_ (fun n => ?_) n
  · change ¬ (1e9 : ℝ) < 0
    norm_num
  · rw [sc.simAt_succ]
    exact stdMin_lt_zero ..

theorem CTRL_DT_S_pos : (0 : ℝ) < hw.CTRL_DT_S := by
  change (0 : ℝ) < CFloat.ofInt 1 / CFloat.ofInt hw.CTRL_HZ
  rw [real_ofInt, real_ofInt]
  norm_num [hw.CTRL_HZ]

/-- **The two measures of a rollover agree.**  In a run of a fresh vehicle on flat ground a
wheel has been up exactly when the margin has been negative, and a kart that is tipped has
had both; so the aggregates of a scenario never contradict each other. -/
theorem rollover_measures_agree (hcos : CTrig.cos (0 : ℝ) = 1) (hsin : CTrig.sin (0 : ℝ) = 0) :
    (∀ veh : Vehicle ℝ, veh.Fresh → veh.groundFn = none → veh.p.Stands →
      ∀ w : Nat → StepCmd ℝ, (∀ n, 0 < (w n).dt) →
        ∀ n, Vehicle.MeasuresAgree ((Vehicle.machine veh).stateAt w) n) ∧
      ∀ (sc : Scenario ℝ) (defaults : KartConfig ℝ), sc.vehicle.Fresh →
        sc.vehicle.groundFn = none → sc.vehicle.p.Stands →
          ((runScenario sc defaults).wheelLifted = true ↔
            (runScenario sc defaults).minTipMargin < 0) ∧
          ((runScenario sc defaults).tipped = true →
            (runScenario sc defaults).wheelLifted = true ∧
              (runScenario sc defaults).minTipMargin < 0) := by
  constructor
  · intro veh hfresh hground hp w hdt n
    exact Vehicle.measuresAgree hcos hsin hfresh hground hp hdt n
  · intro sc defaults hfresh hground hp
    have hdt : ∀ n, 0 < (sc.cmdAt defaults n).dt := by
      intro n
      rw [sc.cmdAt_dt]
      exact CTRL_DT_S_pos
    have hagree := Vehicle.measuresAgree hcos hsin hfresh hground hp hdt sc.steps
    simp only [Vehicle.MeasuresAgree, ← sc.simAt_veh defaults] at hagree
    rw [← sc.wheelLifted_iff, ← sc.tipped_iff, ← sc.minTipMargin_iff] at hagree
    exact hagree

end Exact

/-! ### An asymmetric load -/

def T_DRIVE : F := 1.6

def held (t t0 dur : F) : Bool := decide (t ≥ t0) && decide (t ≤ t0 + dur)

/-- START is held before `T_DRIVE`; from then on the script drives. -/
def armPhase (t : F) (c : PadCmd F) : PadCmd F :=
  if t < T_DRIVE then { PadCmd.default with start := held t 0.2 1.3 } else c

/-- One child on the left, hard turns on both sides at full speed. -/
def enfantSeulCote : Scenario F where
  durationS := 13
  cfg := none
  veh := some fun veh =>
    { veh with p := { veh.p with massPassKg := 33, ycgM := 0.10, hcgM := 0.46 } }
  pad := fun t => armPhase t
    { (PadCmd.default : PadCmd F) with
      y := 1
      x := if t ≥ 8 then -1 else if t ≥ 5 then 1 else 0 }
  calibrated := true

section Bench

/-- The functions of the standard library, exact. -/
noncomputable instance realTrig : CTrig ℝ where
  sin := Real.sin
  cos := Real.cos
  atan2 y x := Complex.arg ⟨x, y⟩

theorem enfantSeulCote_fresh : (enfantSeulCote : Scenario ℝ).vehicle.Fresh :=
  (Vehicle.fresh_new .default).settings _ none none

theorem enfantSeulCote_stands : (enfantSeulCote : Scenario ℝ).vehicle.p.Stands := by
  have hleft : (enfantSeulCote : Scenario ℝ).vehicle.p.aTipLeft =
      9.81 * (0.832 / CFloat.ofInt 2 * (CFloat.ofInt 1 - 0.455 / 1.165) - 0.10) / 0.46 := rfl
  have hright : (enfantSeulCote : Scenario ℝ).vehicle.p.aTipRight =
      9.81 * (0.832 / CFloat.ofInt 2 * (CFloat.ofInt 1 - 0.455 / 1.165) + 0.10) / 0.46 := rfl
  refine ⟨?_, ?_, ?_⟩
  · change (0 : ℝ) < 0.46
    norm_num
  · rw [hleft, real_ofInt, real_ofInt]
    norm_num
  · rw [hright, real_ofInt, real_ofInt]
    norm_num

noncomputable def realDefaults : KartConfig ℝ :=
  KartConfig.setDefaults round ⟨0, 0, 0, 0, 0, 0, 0, 0, 0, 0, 0, 0, 0, 0, 0⟩

theorem rollover_measures_agree_child :
    ((runScenario enfantSeulCote realDefaults).wheelLifted = true ↔
      (runScenario enfantSeulCote realDefaults).minTipMargin < 0) :=
  ((rollover_measures_agree Real.cos_zero Real.sin_zero).2 enfantSeulCote realDefaults
    enfantSeulCote_fresh rfl enfantSeulCote_stands).1

end Bench

end sim

end KartFirmware

import KartFirmware.Input

/-!
# The kart of the simulator

`sim/vehicle.hpp`: the physics model that the scenarios drive.  Planar dynamics with two
DC motors, the battery that sags under them, the walls, the ground, and the roll around
the edge of the support triangle.

`Vehicle.step` is cut where the source cuts it with comments.  Each stage is one update of
the state, so that what a stage leaves alone is seen by unfolding it.  The members that
only the display reads are kept where `step` itself reads them back.
-/

namespace KartFirmware

namespace sim

/-- `std::sin`, `std::cos`, `std::atan2`. -/
class CTrig (F : Type) where
  sin : F → F
  cos : F → F
  atan2 : F → F → F

instance : CTrig Float32 := ⟨Float32.sin, Float32.cos, Float32.atan2⟩

variable {F : Type} [CFloat F]

/-! ### The standard minimum and maximum -/

/-- C's `==` says that a value differs from itself: it is a NaN. -/
def isNan (a : F) : Bool := !CFloat.eq a a

/-- `std::fmin`: a NaN loses against a number. -/
def fmin (a b : F) : F :=
  if isNan a then b else if isNan b then a else if b < a then b else a

def fmax (a b : F) : F :=
  if isNan a then b else if isNan b then a else if a < b then b else a

/-! ### The machine -/

def G_MPS2 : F := 9.81
def PI_F : F := 3.14159265

structure VehicleParams (F : Type) where
  massKartKg : F
  massPassKg : F
  trackM : F
  wbM : F
  izKgm2 : F
  /-- The distance of the center of gravity from the paired axle. -/
  xcgM : F
  hcgM : F
  /-- Its lateral offset, positive to the left. -/
  ycgM : F
  wheels : Int
  ke : F
  raOhm : F
  iMaxA : F
  gear : F
  eta : F
  wheelRM : F
  rollN : F
  yawDamp : F
  battV0 : F
  battRint : F
  slopeRad : F
  leanMaxRad : F
  leanTauS : F

namespace VehicleParams

/-- The member initializers. -/
def default : VehicleParams F where
  massKartKg := 32
  massPassKg := 66
  trackM := 0.832
  wbM := 1.165
  izKgm2 := 12
  xcgM := 0.455
  hcgM := 0.482
  ycgM := 0
  wheels := 3
  ke := 12 / (4615 * 2 * PI_F / 60)
  raOhm := 0.15
  iMaxA := 19.6
  gear := 23.70
  eta := 0.85
  wheelRM := 0.127
  rollN := 30
  yawDamp := 4.5
  battV0 := 12.8
  battRint := 0.05
  slopeRad := 0
  leanMaxRad := 0.07
  leanTauS := 0.15

def mass (p : VehicleParams F) : F := p.massKartKg + p.massPassKg

/-- The effective half-width at the center of gravity: a tricycle tips about the line from
the caster to a rear wheel. -/
def wEff (p : VehicleParams F) : F :=
  let half := p.trackM / 2
  if p.wheels = 4 then half else half * (1 - p.xcgM / p.wbM)

def aTipLeft (p : VehicleParams F) : F := G_MPS2 * (p.wEff - p.ycgM) / p.hcgM
def aTipRight (p : VehicleParams F) : F := G_MPS2 * (p.wEff + p.ycgM) / p.hcgM

/-- The worst side, for display. -/
def aTip (p : VehicleParams F) : F := fmin p.aTipLeft p.aTipRight

/-- The force of a wheel that rolls at `vWheel` with `vApplied` on its motor, and the
current, which the driver clamps. -/
def wheelForce (p : VehicleParams F) (vApplied vWheel : F) : F × F :=
  let wMotor := (vWheel / p.wheelRM) * p.gear
  let i := (vApplied - p.ke * wMotor) / p.raOhm
  let i := if i > p.iMaxA then p.iMaxA else i
  let i := if i < -p.iMaxA then -p.iMaxA else i
  let torqueWheel := p.ke * i * p.gear * p.eta
  (torqueWheel / p.wheelRM, i)

end VehicleParams

/-- PWM applied, phase short-circuit, or power cut off. -/
inductive DriveMode where
  | drive
  | brake
  | float
deriving DecidableEq, Repr

structure Vehicle (F : Type) where
  p : VehicleParams F
  /-- The ground under a point; none is flat. -/
  groundFn : Option (F → F → F)
  /-- Whether a point is inside a wall; none is an open world. -/
  wallFn : Option (F → F → Bool)
  v : F
  w : F
  x : F
  y : F
  h : F
  t : F
  vterm : F
  il : F
  ir : F
  z : F
  vz : F
  zInit : Bool
  zgPrev : F
  air : Bool
  pitch : F
  lean : F
  roll : F
  rollrate : F
  /-- The loaded edge: +1 leaning left, -1 leaning right, 0 on the ground. -/
  lift : Int
  tipped : Bool
  powerW : F
  energyWh : F

/-- The arguments of one call of `step`. -/
structure StepCmd (F : Type) where
  mode : DriveMode
  outL : F
  outR : F
  cap : Nat
  dt : F

namespace Vehicle

def new (p : VehicleParams F) : Vehicle F where
  p := p
  groundFn := none
  wallFn := none
  v := 0
  w := 0
  x := 0
  y := 0
  h := 0
  t := 0
  vterm := p.battV0
  il := 0
  ir := 0
  z := 0
  vz := 0
  zInit := false
  zgPrev := 0
  air := false
  pitch := 0
  lean := 0
  roll := 0
  rollrate := 0
  lift := 0
  tipped := false
  powerW := 0
  energyWh := 0

/-! ### What is read of it -/

def aLat (s : Vehicle F) : F := s.v * s.w

def liftSide (s : Vehicle F) : Int := s.lift

/-- The margin against the edge that the maneuver loads. -/
def tipMargin (s : Vehicle F) : F :=
  let limit := if s.aLat ≥ 0 then s.p.aTipLeft else s.p.aTipRight
  limit - CFloat.fabs s.aLat

/-! ### The stages of a step -/

section Stages

variable [CTrig F] [CSqrt F]

/-- Moves the position by `dt`.  A wall blocks one axis after the other, and the speed
shrinks with the distance that was made. -/
def integrate (s : Vehicle F) (dt : F) : Vehicle F :=
  let dx := s.v * CTrig.cos s.h * dt
  let dy := s.v * CTrig.sin s.h * dt
  let nx := s.x + dx
  let ny := s.y + dy
  let blocking : Option (F → F → Bool) :=
    match s.wallFn with
    | some wall => if !s.air && !wall s.x s.y then some wall else none
    | none => none
  match blocking with
  | none => { s with x := nx, y := ny }
  | some wall =>
    let nx := if wall nx s.y then s.x else nx
    let ny := if wall nx ny then s.y else ny
    let want := dx * dx + dy * dy
    let got := (nx - s.x) * (nx - s.x) + (ny - s.y) * (ny - s.y)
    { s with
      v := if want > 1e-12 then s.v * CSqrt.sqrt (got / want) else s.v
      x := nx
      y := ny }

/-- A kart on its side slides to a stop, and its roll goes on to the end of its travel. -/
def slide (s : Vehicle F) (dt : F) : Vehicle F :=
  let dec := 0.4 * G_MPS2 * dt
  let roll := s.roll + (if s.roll > 0 then 1 else -1) * 2.5 * dt
  { s with
    v := if CFloat.fabs s.v > dec then s.v - (if s.v > 0 then dec else -dec) else 0
    w := 0
    roll := if CFloat.fabs roll > 1.48 then (if roll > 0 then 1.48 else -1.48) else roll }

def stepTipped (s : Vehicle F) (dt : F) : Vehicle F :=
  let s := (s.slide dt).integrate dt
  { s with t := s.t + dt, powerW := 0, il := 0, ir := 0 }

/-- The forces and currents of the two wheels. -/
def wheelForces (s : Vehicle F) (c : StepCmd F) : (F × F) × (F × F) :=
  let dutyCap := CFloat.ofInt c.cap / CFloat.ofInt hw.PWM_MAX
  let half := s.p.trackM / 2
  let vl := s.v + s.w * half
  let vr := s.v - s.w * half
  let voltsL := if c.mode = .brake then 0 else c.outL * dutyCap * s.vterm
  let voltsR := if c.mode = .brake then 0 else c.outR * dutyCap * s.vterm
  if c.mode = .float || s.air then ((0, 0), (0, 0))
  else (s.p.wheelForce voltsL vl, s.p.wheelForce voltsR vr)

/-- Longitudinal speed and yaw rate. -/
def traction (s : Vehicle F) (c : StepCmd F) : Vehicle F :=
  let half := s.p.trackM / 2
  let left := (s.wheelForces c).1
  let right := (s.wheelForces c).2
  let fRoll :=
    if !s.air && decide (CFloat.fabs s.v > 0.02) then s.p.rollN * (if s.v > 0 then 1 else -1)
    else 0
  let fSlope := if s.air then 0 else s.p.mass * G_MPS2 * CTrig.sin s.p.slopeRad
  let dv := (left.1 + right.1 - fRoll - fSlope) / s.p.mass
  let dw := ((left.1 - right.1) * half - s.p.yawDamp * s.w) / s.p.izKgm2
  let v := s.v + dv * c.dt
  let atRest := decide (CFloat.fabs v < 0.005) && decide (CFloat.fabs dv < 0.05) &&
    decide (c.mode = .brake)
  { s with
    v := if atRest then 0 else v
    w := s.w + dw * c.dt
    il := left.2
    ir := right.2 }

def turn (s : Vehicle F) (dt : F) : Vehicle F := { s with h := s.h + s.w * dt, t := s.t + dt }

/-- The terminal voltage under the current drawn, and the energy. -/
def battery (s : Vehicle F) (c : StepCmd F) : Vehicle F :=
  let itot := CFloat.fabs s.il + CFloat.fabs s.ir
  let vterm := s.p.battV0 - s.p.battRint * itot
  let vterm := if vterm < 0 then 0 else vterm
  let powerW := if c.mode = .drive then vterm * itot else 0
  { s with
    vterm := vterm
    powerW := powerW
    energyWh := s.energyWh + powerW * c.dt / 3600 }

/-- The height of the ground under the kart. -/
def groundHere (s : Vehicle F) : F :=
  match s.groundFn with
  | some ground => ground s.x s.y
  | none => 0

/-- The first step settles on the ground. -/
def settle (s : Vehicle F) : Vehicle F :=
  if s.zInit then s else { s with z := s.groundHere, zgPrev := s.groundHere, zInit := true }

/-- Follows the ground, or flies where it drops away. -/
def vertical (s : Vehicle F) (dt : F) : Vehicle F :=
  let zg := s.groundHere
  let s := s.settle
  let zBall := s.z + s.vz * dt
  let vzBall := s.vz - G_MPS2 * dt
  if zBall ≤ zg + 1e-4 then
    let vzMax := CFloat.fabs s.v + 0.5
    let vzG := (zg - s.zgPrev) / dt
    let vzG := if vzG > vzMax then vzMax else vzG
    let vzG := if vzG < -vzMax then -vzMax else vzG
    { s with air := false, vz := vzG, z := zg, zgPrev := zg }
  else { s with air := true, z := zBall, vz := vzBall, zgPrev := zg }

/-- Pitch and lean, which are displayed. -/
def attitude (s : Vehicle F) (dt : F) : Vehicle F :=
  let pitchTgt := if s.air then CTrig.atan2 s.vz (CFloat.fabs s.v + 0.5) else s.p.slopeRad
  let leanTgt := s.p.leanMaxRad * fmax (-1) (fmin 1 (s.aLat / s.p.aTip))
  { s with
    pitch := s.pitch + (pitchTgt - s.pitch) * fmin 1 (dt / 0.25)
    lean := s.lean + (leanTgt - s.lean) * fmin 1 (dt / s.p.leanTauS) }

/-- A wheel lifts when the lateral acceleration exceeds the limit of the loaded side. -/
def liftOff (s : Vehicle F) : Int :=
  if s.aLat > s.p.aTipLeft then 1 else if -s.aLat > s.p.aTipRight then -1 else 0

/-- The distance from the center of gravity to the loaded edge. -/
def edge (p : VehicleParams F) (lift : Int) : F :=
  if lift > 0 then p.wEff - p.ycgM else p.wEff + p.ycgM

/-- The angular acceleration around the loaded edge at the angle `phi`. -/
def rollAcc (p : VehicleParams F) (lift : Int) (al phi : F) : F :=
  let sgn := CFloat.ofInt lift
  let we := edge p lift
  let h := p.hcgM
  let cs := CTrig.cos phi
  let sn := CTrig.sin phi
  let inertia := 1.3 * (we * we + h * h)
  (sgn * al * (h * cs + we * sn) - G_MPS2 * (we * cs - h * sn)) / inertia

/-- The roll with a wheel lifted: it falls back, or goes on, past the point of no return
if the center of gravity crosses the edge. -/
def swing (s : Vehicle F) (lift : Int) (dt : F) : Vehicle F :=
  let sgn := CFloat.ofInt lift
  let phi := sgn * s.roll
  let rollrate := s.rollrate + rollAcc s.p lift s.aLat phi * dt
  let nphi := phi + rollrate * dt
  if nphi ≤ 0 then { s with roll := 0, rollrate := 0, lift := 0 }
  else
    { s with
      lift := lift
      rollrate := rollrate
      tipped := s.tipped || decide (nphi ≥ CTrig.atan2 (edge s.p lift) s.p.hcgM)
      roll := sgn * nphi }

def stepRoll (s : Vehicle F) (dt : F) : Vehicle F :=
  if s.lift = 0 then if s.liftOff = 0 then s else s.swing s.liftOff dt
  else s.swing s.lift dt

/-- Everything that a step does before the roll. -/
def stepPlanar (s : Vehicle F) (c : StepCmd F) : Vehicle F :=
  (((((s.traction c).integrate c.dt).turn c.dt).battery c).vertical c.dt).attitude c.dt

def step (s : Vehicle F) (c : StepCmd F) : Vehicle F :=
  if s.tipped then s.stepTipped c.dt
  else
    let s := s.stepPlanar c
    if s.air then s else s.stepRoll c.dt

/-- The kart from the state `s` on: a step for every command. -/
def machine (s : Vehicle F) : Mealy.Machine (Vehicle F) (StepCmd F) Unit where
  init := s
  step s c := (s.step c, ())

end Stages

/-- A vehicle that was constructed and has had its settings written, but no step. -/
def Fresh (s : Vehicle F) : Prop :=
  ∃ q, s = { new q with p := s.p, groundFn := s.groundFn, wallFn := s.wallFn }

theorem fresh_new (p : VehicleParams F) : (new p).Fresh := ⟨p, rfl⟩

theorem Fresh.settings {s : Vehicle F} (h : s.Fresh) (p : VehicleParams F)
    (ground : Option (F → F → F)) (wall : Option (F → F → Bool)) :
    ({ s with p := p, groundFn := ground, wallFn := wall } : Vehicle F).Fresh := by
  obtain ⟨q, hq⟩ := h
  exact ⟨q, by rw [hq]⟩

theorem Fresh.lift {s : Vehicle F} (h : s.Fresh) : s.lift = 0 := by
  obtain ⟨q, hq⟩ := h
  rw [hq]
  rfl

end Vehicle

end sim

end KartFirmware

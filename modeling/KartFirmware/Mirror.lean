import KartFirmware.Simulation
import KartFirmware.ExactControl

/-!
# The mirrored kart

Left for right: the load, the ground and the walls are mirrored, and the wheels are
exchanged.  In exact arithmetic a step of the mirrored kart under the exchanged commands is
the mirrored step (`mirror_step`), in every one of its stages, if the sine is odd and the
cosine is even.

Two places need a reason.  Only one of the tests for a lifted wheel can hold, if the limits of
the two sides add up to something; and a kart that is tipped lies on one of its sides
(`OnSide`), so that it knows which way to roll on.
-/

set_option linter.unusedSectionVars false

namespace KartFirmware

namespace sim

/-! ### Left for right -/

def VehicleParams.mirror (p : VehicleParams ℚ) : VehicleParams ℚ := { p with ycgM := -p.ycgM }

def StepCmd.mirror (c : StepCmd ℚ) : StepCmd ℚ := { c with outL := c.outR, outR := c.outL }

namespace Vehicle

def mirror (s : Vehicle ℚ) : Vehicle ℚ :=
  { s with
    p := s.p.mirror
    groundFn := s.groundFn.map fun ground x y => ground x (-y)
    wallFn := s.wallFn.map fun wall x y => wall x (-y)
    w := -s.w
    y := -s.y
    h := -s.h
    il := s.ir
    ir := s.il
    lean := -s.lean
    roll := -s.roll
    lift := -s.lift }

theorem mirror_aLat (s : Vehicle ℚ) : s.mirror.aLat = -s.aLat := mul_neg s.v s.w

theorem mirror_aTipLeft (p : VehicleParams ℚ) : p.mirror.aTipLeft = p.aTipRight := by
  have hside : p.wEff - -p.ycgM = p.wEff + p.ycgM := sub_neg_eq_add _ _
  exact congrArg (fun side => G_MPS2 * side / p.hcgM) hside

theorem mirror_aTipRight (p : VehicleParams ℚ) : p.mirror.aTipRight = p.aTipLeft := by
  have hside : p.wEff + -p.ycgM = p.wEff - p.ycgM := (sub_eq_add_neg _ _).symm
  exact congrArg (fun side => G_MPS2 * side / p.hcgM) hside

theorem fmin_exact (a b : ℚ) : fmin a b = min a b := by
  have hnan : ∀ c : ℚ, isNan c = false := by
    intro c
    change (!decide (c = c)) = false
    simp
  rw [fmin, hnan, hnan, min_comm, min_def_lt]
  rfl

theorem fmax_exact (a b : ℚ) : fmax a b = max a b := by
  have hnan : ∀ c : ℚ, isNan c = false := by
    intro c
    change (!decide (c = c)) = false
    simp
  rw [fmax, hnan, hnan, max_def_lt]
  rfl

theorem mirror_aTip (p : VehicleParams ℚ) : p.mirror.aTip = p.aTip := by
  rw [VehicleParams.aTip, VehicleParams.aTip, mirror_aTipLeft, mirror_aTipRight, fmin_exact,
    fmin_exact, min_comm]

/-! ### The planar stages -/

section Formulas

variable {F : Type} [CFloat F] [CTrig F] [CSqrt F] (s : Vehicle F) (c : StepCmd F) (dt : F)

/-- The acceleration along the heading. -/
def dv : F :=
  ((s.wheelForces c).1.1 + (s.wheelForces c).2.1 -
    (if !s.air && decide (CFloat.fabs s.v > 0.02) then s.p.rollN * (if s.v > 0 then 1 else -1)
      else 0) -
    (if s.air then 0 else s.p.mass * G_MPS2 * CTrig.sin s.p.slopeRad)) / s.p.mass

/-- The yaw acceleration. -/
def dw : F :=
  (((s.wheelForces c).1.1 - (s.wheelForces c).2.1) * (s.p.trackM / 2) - s.p.yawDamp * s.w) /
    s.p.izKgm2

/-- The speed after the acceleration; a braked kart stops. -/
def nextV : F :=
  if decide (CFloat.fabs (s.v + s.dv c * c.dt) < 0.005) &&
      decide (CFloat.fabs (s.dv c) < 0.05) && decide (c.mode = .brake) then 0
  else s.v + s.dv c * c.dt

def nextW : F := s.w + s.dw c * c.dt

theorem traction_eq :
    s.traction c =
      { s with
        v := s.nextV c, w := s.nextW c, il := (s.wheelForces c).1.2
        ir := (s.wheelForces c).2.2 } := rfl

def dx : F := s.v * CTrig.cos s.h * dt
def dy : F := s.v * CTrig.sin s.h * dt

/-- The position that a wall leaves, one axis after the other. -/
def slid (wall : F → F → Bool) : F × F :=
  let nx := if wall (s.x + s.dx dt) s.y then s.x else s.x + s.dx dt
  (nx, if wall nx (s.y + s.dy dt) then s.y else s.y + s.dy dt)

/-- The speed that is left at the position `q`. -/
def slowed (q : F × F) : F :=
  if s.dx dt * s.dx dt + s.dy dt * s.dy dt > 1e-12 then
    s.v * CSqrt.sqrt (((q.1 - s.x) * (q.1 - s.x) + (q.2 - s.y) * (q.2 - s.y)) /
      (s.dx dt * s.dx dt + s.dy dt * s.dy dt))
  else s.v

/-- A wall blocks a kart on the ground that is outside of it. -/
def blocking : Option (F → F → Bool) :=
  match s.wallFn with
  | some wall => if !s.air && !wall s.x s.y then some wall else none
  | none => none

/-- The kart after the move, with a wall in the way or not. -/
def moved : Option (F → F → Bool) → Vehicle F
  | none => { s with x := s.x + s.dx dt, y := s.y + s.dy dt }
  | some wall =>
    { s with v := s.slowed dt (s.slid dt wall), x := (s.slid dt wall).1, y := (s.slid dt wall).2 }

theorem integrate_moved : s.integrate dt = s.moved dt s.blocking := by
  have hblocking : s.integrate dt = match s.blocking with
      | none => s.moved dt none
      | some wall => s.moved dt (some wall) := rfl
  rw [hblocking]
  cases s.blocking with
  | none => rfl
  | some wall => rfl

/-- The kart on the ground below it. -/
def landed : Vehicle F :=
  let vzMax := CFloat.fabs s.v + 0.5
  let vzG := (s.groundHere - s.zgPrev) / dt
  let vzG := if vzG > vzMax then vzMax else vzG
  let vzG := if vzG < -vzMax then -vzMax else vzG
  { s with air := false, vz := vzG, z := s.groundHere, zgPrev := s.groundHere }

def flying : Vehicle F :=
  { s with air := true, z := s.z + s.vz * dt, vz := s.vz - G_MPS2 * dt, zgPrev := s.groundHere }

theorem settle_groundHere : s.settle.groundHere = s.groundHere := by
  unfold settle
  split_ifs <;> rfl

theorem vertical_eq :
    s.vertical dt =
      if s.settle.z + s.settle.vz * dt ≤ s.settle.groundHere + 1e-4 then s.settle.landed dt
      else s.settle.flying dt := by
  simp only [landed, flying, settle_groundHere]
  rfl

def leanTgt : F := s.p.leanMaxRad * fmax (-1) (fmin 1 (s.aLat / s.p.aTip))

def nextLean : F := s.lean + (s.leanTgt - s.lean) * fmin 1 (dt / s.p.leanTauS)

def nextPitch : F :=
  s.pitch + ((if s.air then CTrig.atan2 s.vz (CFloat.fabs s.v + 0.5) else s.p.slopeRad) -
    s.pitch) * fmin 1 (dt / 0.25)

theorem attitude_eq :
    s.attitude dt = { s with pitch := s.nextPitch dt, lean := s.nextLean dt } := rfl

def nextRate (lift : Int) : F :=
  s.rollrate + rollAcc s.p lift s.aLat (CFloat.ofInt lift * s.roll) * dt

def nextAngle (lift : Int) : F := CFloat.ofInt lift * s.roll + s.nextRate dt lift * dt

theorem swing_back {lift : Int} (h : s.nextAngle dt lift ≤ 0) :
    s.swing lift dt = { s with roll := 0, rollrate := 0, lift := 0 } := if_pos h

theorem swing_up {lift : Int} (h : ¬ s.nextAngle dt lift ≤ 0) :
    s.swing lift dt =
      { s with
        lift := lift
        rollrate := s.nextRate dt lift
        tipped := s.tipped || decide (s.nextAngle dt lift ≥ CTrig.atan2 (edge s.p lift) s.p.hcgM)
        roll := CFloat.ofInt lift * s.nextAngle dt lift } := if_neg h

/-- The roll of a kart on its side goes on to the end of its travel. -/
def slidRoll : F :=
  let roll := s.roll + (if s.roll > 0 then 1 else -1) * 2.5 * dt
  if CFloat.fabs roll > 1.48 then (if roll > 0 then 1.48 else -1.48) else roll

def slidSpeed : F :=
  if CFloat.fabs s.v > 0.4 * G_MPS2 * dt then
    s.v - (if s.v > 0 then 0.4 * G_MPS2 * dt else -(0.4 * G_MPS2 * dt))
  else 0

theorem slide_eq : s.slide dt = { s with v := s.slidSpeed dt, w := 0, roll := s.slidRoll dt } := rfl

/-! ### What the stages leave alone -/

theorem integrate_frame :
    (s.integrate dt).p = s.p ∧ (s.integrate dt).tipped = s.tipped ∧
      (s.integrate dt).roll = s.roll := by
  rw [integrate_moved]
  cases s.blocking with
  | none => exact ⟨rfl, rfl, rfl⟩
  | some wall => exact ⟨rfl, rfl, rfl⟩

theorem vertical_frame : (s.vertical dt).p = s.p ∧ (s.vertical dt).tipped = s.tipped := by
  have hsettle : s.settle.p = s.p ∧ s.settle.tipped = s.tipped := by
    unfold settle
    split_ifs <;> exact ⟨rfl, rfl⟩
  rw [vertical_eq]
  split_ifs <;> exact hsettle

theorem stepPlanar_frame :
    (s.stepPlanar c).p = s.p ∧ (s.stepPlanar c).tipped = s.tipped := by
  have hmoved := integrate_frame (s.traction c) c.dt
  have hvertical :=
    vertical_frame ((((s.traction c).integrate c.dt).turn c.dt).battery c) c.dt
  exact ⟨hvertical.1.trans hmoved.1, hvertical.2.trans hmoved.2.1⟩

theorem swing_p (lift : Int) : (s.swing lift dt).p = s.p := by
  unfold swing
  dsimp only
  split_ifs <;> rfl

theorem step_p : (s.step c).p = s.p := by
  unfold step stepRoll
  split_ifs
  · exact (integrate_frame (s.slide c.dt) c.dt).1
  · dsimp only
    split_ifs
    · exact (stepPlanar_frame s c).1
    · exact (stepPlanar_frame s c).1
    · exact (swing_p ..).trans (stepPlanar_frame s c).1
    · exact (swing_p ..).trans (stepPlanar_frame s c).1

end Formulas

section Planar

variable [CTrig ℚ] [CSqrt ℚ] (hsin : ∀ a : ℚ, CTrig.sin (-a) = -CTrig.sin a)
  (hcos : ∀ a : ℚ, CTrig.cos (-a) = CTrig.cos a) (s : Vehicle ℚ) (c : StepCmd ℚ) (dt : ℚ)

theorem mirror_wheelForces : s.mirror.wheelForces c.mirror = (s.wheelForces c).swap := by
  have hleft : s.v + -s.w * (s.p.trackM / CFloat.ofInt 2) =
      s.v - s.w * (s.p.trackM / CFloat.ofInt 2) := by
    rw [neg_mul, ← sub_eq_add_neg]
  have hright : s.v - -s.w * (s.p.trackM / CFloat.ofInt 2) =
      s.v + s.w * (s.p.trackM / CFloat.ofInt 2) := by
    rw [neg_mul, sub_neg_eq_add]
  unfold wheelForces
  dsimp only
  by_cases hoff : (decide (c.mode = .float) || s.air) = true
  · rw [if_pos hoff]
    exact if_pos hoff
  · rw [if_neg hoff]
    refine (if_neg hoff).trans ?_
    exact Prod.ext (congrArg (s.p.wheelForce _) hleft) (congrArg (s.p.wheelForce _) hright)

theorem mirror_dv : s.mirror.dv c.mirror = s.dv c := by
  have hsum : (s.wheelForces c).2.1 + (s.wheelForces c).1.1 =
      (s.wheelForces c).1.1 + (s.wheelForces c).2.1 := add_comm _ _
  unfold dv
  rw [mirror_wheelForces]
  exact congrArg (fun force : ℚ => (force - _ - _) / s.p.mass) hsum

theorem mirror_dw : s.mirror.dw c.mirror = -s.dw c := by
  have hneg : ∀ l r half damp w iz : ℚ,
      ((r - l) * half - damp * -w) / iz = -(((l - r) * half - damp * w) / iz) := by
    intro l r half damp w iz
    ring
  unfold dw
  rw [mirror_wheelForces]
  exact hneg ..

theorem mirror_nextV : s.mirror.nextV c.mirror = s.nextV c := by
  unfold nextV
  rw [mirror_dv]
  rfl

theorem mirror_nextW : s.mirror.nextW c.mirror = -s.nextW c := by
  have hneg : -s.w + -s.dw c * c.dt = -(s.w + s.dw c * c.dt) := by ring
  unfold nextW
  rw [mirror_dw]
  exact hneg

theorem mirror_traction : s.mirror.traction c.mirror = (s.traction c).mirror := by
  rw [traction_eq, traction_eq, mirror_nextV, mirror_nextW, mirror_wheelForces]
  rfl

include hcos in
theorem mirror_dx : s.mirror.dx dt = s.dx dt :=
  congrArg (fun cosine : ℚ => s.v * cosine * dt) (hcos s.h)

include hsin in
theorem mirror_dy : s.mirror.dy dt = -s.dy dt := by
  have hneg : s.v * CTrig.sin (-s.h) * dt = -(s.v * CTrig.sin s.h * dt) := by
    rw [hsin]
    ring
  exact hneg

include hsin hcos in
theorem mirror_slid (wall : ℚ → ℚ → Bool) :
    s.mirror.slid dt (fun x y => wall x (-y)) = ((s.slid dt wall).1, -(s.slid dt wall).2) := by
  have hhere : wall (s.x + s.dx dt) (- -s.y) = wall (s.x + s.dx dt) s.y := by rw [neg_neg]
  have hy : -s.y + -s.dy dt = -(s.y + s.dy dt) := by ring
  have hnext : ∀ x, wall x (-(-s.y + -s.dy dt)) = wall x (s.y + s.dy dt) := by
    intro x
    rw [hy, neg_neg]
  unfold slid
  rw [mirror_dx hcos, mirror_dy hsin]
  change (if wall (s.x + s.dx dt) (- -s.y) = true then s.x else s.x + s.dx dt,
    if wall (if wall (s.x + s.dx dt) (- -s.y) = true then s.x else s.x + s.dx dt)
      (-(-s.y + -s.dy dt)) = true then -s.y else -s.y + -s.dy dt) = _
  rw [hhere, hnext, hy, ← apply_ite Neg.neg]

include hsin hcos in
theorem mirror_slowed (q : ℚ × ℚ) : s.mirror.slowed dt (q.1, -q.2) = s.slowed dt q := by
  have hwant : -s.dy dt * -s.dy dt = s.dy dt * s.dy dt := by ring
  have hgot : (-q.2 - -s.y) * (-q.2 - -s.y) = (q.2 - s.y) * (q.2 - s.y) := by ring
  unfold slowed
  rw [mirror_dx hcos, mirror_dy hsin]
  change (if s.dx dt * s.dx dt + -s.dy dt * -s.dy dt > _ then
    s.v * CSqrt.sqrt (((q.1 - s.x) * (q.1 - s.x) + (-q.2 - -s.y) * (-q.2 - -s.y)) /
      (s.dx dt * s.dx dt + -s.dy dt * -s.dy dt)) else s.v) = _
  rw [hwant, hgot]

theorem mirror_blocking :
    s.mirror.blocking = s.blocking.map fun wall x y => wall x (-y) := by
  cases hwall : s.wallFn with
  | none => simp [blocking, mirror, hwall]
  | some wall =>
    simp only [blocking, mirror, hwall, Option.map_some, neg_neg]
    split_ifs <;> rfl

include hsin hcos in
theorem mirror_moved (wall : Option (ℚ → ℚ → Bool)) :
    s.mirror.moved dt (wall.map fun wall x y => wall x (-y)) = (s.moved dt wall).mirror := by
  cases wall with
  | none =>
    have hy : -s.y + -s.dy dt = -(s.y + s.dy dt) := by ring
    simp only [Option.map_none, moved, mirror_dx hcos, mirror_dy hsin]
    exact congrArg (fun y => ({ s.mirror with x := s.x + s.dx dt, y := y } : Vehicle ℚ)) hy
  | some wall =>
    simp only [Option.map_some, moved, mirror_slid hsin hcos, mirror_slowed hsin hcos]
    rfl

include hsin hcos in
theorem mirror_integrate : s.mirror.integrate dt = (s.integrate dt).mirror := by
  rw [integrate_moved, integrate_moved, mirror_blocking, mirror_moved hsin hcos]

theorem mirror_turn : s.mirror.turn dt = (s.turn dt).mirror := by
  have hneg : -s.h + -s.w * dt = -(s.h + s.w * dt) := by ring
  exact congrArg (fun h => ({ s.mirror with h := h, t := s.t + dt } : Vehicle ℚ)) hneg

theorem mirror_battery : s.mirror.battery c.mirror = (s.battery c).mirror := by
  have hsum : CFloat.fabs s.ir + CFloat.fabs s.il = CFloat.fabs s.il + CFloat.fabs s.ir :=
    add_comm _ _
  exact congrArg
    (fun itot : ℚ =>
      let vterm := s.p.battV0 - s.p.battRint * itot
      let vterm := if vterm < CFloat.ofInt 0 then CFloat.ofInt 0 else vterm
      let powerW := if c.mode = .drive then vterm * itot else CFloat.ofInt 0
      { s.mirror with
        vterm := vterm
        powerW := powerW
        energyWh := s.energyWh + powerW * c.dt / CFloat.ofInt 3600 })
    hsum

theorem mirror_groundHere : s.mirror.groundHere = s.groundHere := by
  cases hground : s.groundFn with
  | none => simp only [groundHere, mirror, hground, Option.map_none]
  | some ground => simp only [groundHere, mirror, hground, Option.map_some, neg_neg]

theorem mirror_settle : s.mirror.settle = s.settle.mirror := by
  unfold settle
  rw [mirror_groundHere]
  by_cases hinit : s.zInit = true
  · rw [if_pos hinit]
    exact if_pos hinit
  · rw [if_neg hinit]
    exact if_neg hinit

theorem mirror_landed : s.mirror.landed dt = (s.landed dt).mirror := by
  unfold landed
  rw [mirror_groundHere]
  rfl

theorem mirror_flying : s.mirror.flying dt = (s.flying dt).mirror := by
  unfold flying
  rw [mirror_groundHere]
  rfl

theorem mirror_vertical : s.mirror.vertical dt = (s.vertical dt).mirror := by
  rw [vertical_eq, vertical_eq, mirror_settle, mirror_groundHere, mirror_landed, mirror_flying,
    apply_ite mirror]
  rfl

theorem clamp_neg (a : ℚ) : max (-1) (min 1 (-a)) = -max (-1) (min 1 a) := by
  rw [max_def, max_def, min_def, min_def]
  split_ifs <;> linarith

theorem mirror_leanTgt : s.mirror.leanTgt = -s.leanTgt := by
  have hone : (CFloat.ofInt 1 : ℚ) = 1 := Int.cast_one
  have htgt : ∀ s : Vehicle ℚ,
      s.leanTgt = s.p.leanMaxRad * max (-1) (min 1 (s.aLat / s.p.aTip)) := by
    intro s
    rw [leanTgt, fmax_exact, fmin_exact, ← hone]
  have htip : s.mirror.p.aTip = s.p.aTip := mirror_aTip s.p
  have hneg : -s.aLat / s.p.aTip = -(s.aLat / s.p.aTip) := neg_div _ _
  rw [htgt, htgt, htip, mirror_aLat]
  exact (congrArg (fun a => s.p.leanMaxRad * max (-1) (min 1 a)) hneg).trans
    ((congrArg (s.p.leanMaxRad * ·) (clamp_neg _)).trans (mul_neg _ _))

theorem mirror_nextLean : s.mirror.nextLean dt = -s.nextLean dt := by
  have hneg : ∀ target rate : ℚ,
      -s.lean + (-target - -s.lean) * rate = -(s.lean + (target - s.lean) * rate) := by
    intro target rate
    ring
  unfold nextLean
  rw [mirror_leanTgt]
  exact hneg ..

theorem mirror_attitude : s.mirror.attitude dt = (s.attitude dt).mirror := by
  rw [attitude_eq, attitude_eq, mirror_nextLean]
  rfl

include hsin hcos in
theorem mirror_stepPlanar : s.mirror.stepPlanar c.mirror = (s.stepPlanar c).mirror := by
  have hdt : c.mirror.dt = c.dt := rfl
  unfold stepPlanar
  rw [hdt, mirror_traction, mirror_integrate hsin hcos, mirror_turn, mirror_battery,
    mirror_vertical, mirror_attitude]

end Planar

/-! ### The roll -/

section Roll

variable (p : VehicleParams ℚ) {lift : Int}

theorem mirror_edge (h : lift ≠ 0) : edge p.mirror (-lift) = edge p lift := by
  unfold edge
  rcases lt_or_gt_of_ne h with hneg | hpos
  · rw [if_pos (neg_pos.mpr hneg), if_neg (not_lt.mpr hneg.le)]
    exact sub_neg_eq_add _ _
  · rw [if_neg (by omega), if_pos hpos]
    exact (sub_eq_add_neg _ _).symm

theorem ofInt_neg (n : Int) : (CFloat.ofInt (-n) : ℚ) = -CFloat.ofInt n := Int.cast_neg n

variable [CTrig ℚ] [CSqrt ℚ] (s : Vehicle ℚ) (dt : ℚ)

theorem mirror_rollAcc (h : lift ≠ 0) (al phi : ℚ) :
    rollAcc p.mirror (-lift) (-al) phi = rollAcc p lift al phi := by
  have hpull : -CFloat.ofInt lift * -al = CFloat.ofInt lift * al := neg_mul_neg _ _
  unfold rollAcc
  rw [mirror_edge p h, ofInt_neg]
  exact congrArg
    (fun pull : ℚ =>
      (pull * (p.hcgM * CTrig.cos phi + edge p lift * CTrig.sin phi) -
        G_MPS2 * (edge p lift * CTrig.cos phi - p.hcgM * CTrig.sin phi)) /
      (1.3 * (edge p lift * edge p lift + p.hcgM * p.hcgM)))
    hpull

theorem mirror_angle (lift : Int) :
    CFloat.ofInt (-lift) * s.mirror.roll = CFloat.ofInt lift * s.roll := by
  rw [ofInt_neg]
  exact neg_mul_neg _ _

theorem mirror_nextRate (h : lift ≠ 0) : s.mirror.nextRate dt (-lift) = s.nextRate dt lift := by
  unfold nextRate
  rw [mirror_angle, mirror_aLat]
  exact congrArg (fun acc : ℚ => s.rollrate + acc * dt) (mirror_rollAcc s.p h _ _)

theorem mirror_nextAngle (h : lift ≠ 0) : s.mirror.nextAngle dt (-lift) = s.nextAngle dt lift := by
  unfold nextAngle
  rw [mirror_angle, mirror_nextRate s dt h]

theorem mirror_swing (h : lift ≠ 0) : s.mirror.swing (-lift) dt = (s.swing lift dt).mirror := by
  have hangle := mirror_nextAngle s dt h
  by_cases hback : s.nextAngle dt lift ≤ CFloat.ofInt 0
  · have hzero : (-CFloat.ofInt 0 : ℚ) = CFloat.ofInt 0 := neg_zero
    rw [swing_back s dt hback, swing_back s.mirror dt (hangle.trans_le hback)]
    exact congrArg
      (fun roll => { s.mirror with roll := roll, rollrate := CFloat.ofInt 0, lift := 0 })
      hzero.symm
  · have hedge : edge s.mirror.p (-lift) = edge s.p lift := mirror_edge s.p h
    have hroll : CFloat.ofInt (-lift) * s.nextAngle dt lift =
        -(CFloat.ofInt lift * s.nextAngle dt lift) := by
      rw [ofInt_neg]
      exact neg_mul _ _
    rw [swing_up s dt hback, swing_up s.mirror dt (fun hup => hback (hangle.symm.trans_le hup)),
      hangle, mirror_nextRate s dt h, hedge, hroll]
    rfl

theorem mirror_liftOff (h : 0 ≤ s.p.aTipLeft + s.p.aTipRight) : s.mirror.liftOff = -s.liftOff := by
  have hleft : s.mirror.p.aTipLeft = s.p.aTipRight := mirror_aTipLeft s.p
  have hright : s.mirror.p.aTipRight = s.p.aTipLeft := mirror_aTipRight s.p
  have hneg : - -s.aLat = s.aLat := neg_neg _
  unfold liftOff
  rw [hleft, hright, mirror_aLat, hneg]
  by_cases hl : s.p.aTipLeft < s.aLat
  · have hr : ¬ s.p.aTipRight < -s.aLat := by linarith
    rw [if_neg hr, if_pos hl, if_pos hl]
  · by_cases hr : s.p.aTipRight < -s.aLat
    · rw [if_pos hr, if_neg hl, if_pos hr]
      rfl
    · rw [if_neg hr, if_neg hl, if_neg hl, if_neg hr]
      rfl

theorem mirror_stepRoll (h : 0 ≤ s.p.aTipLeft + s.p.aTipRight) :
    s.mirror.stepRoll dt = (s.stepRoll dt).mirror := by
  have hlift : s.mirror.lift = -s.lift := rfl
  unfold stepRoll
  rw [mirror_liftOff s h, hlift]
  by_cases hdown : s.lift = 0
  · rw [if_pos hdown, if_pos (neg_eq_zero.mpr hdown)]
    by_cases hoff : s.liftOff = 0
    · rw [if_pos hoff, if_pos (neg_eq_zero.mpr hoff)]
    · rw [if_neg hoff, if_neg (mt neg_eq_zero.mp hoff), mirror_swing s dt hoff]
  · rw [if_neg hdown, if_neg (mt neg_eq_zero.mp hdown), mirror_swing s dt hdown]

/-- A kart that is tipped lies on one of its sides. -/
def OnSide (s : Vehicle ℚ) : Prop := s.tipped = true → s.roll ≠ 0

theorem slidRoll_exact (s : Vehicle ℚ) (dt : ℚ) :
    s.slidRoll dt =
      if 1.48 < |s.roll + (if 0 < s.roll then 1 else -1) * 2.5 * dt| then
        (if 0 < s.roll + (if 0 < s.roll then 1 else -1) * 2.5 * dt then 1.48 else -1.48)
      else s.roll + (if 0 < s.roll then 1 else -1) * 2.5 * dt := by
  rfl

theorem slidRoll_pos (hroll : 0 < s.roll) (hdt : 0 ≤ dt) : 0 < s.slidRoll dt := by
  have hnext : 0 < s.roll + 1 * 2.5 * dt := by linarith
  rw [slidRoll_exact, if_pos hroll, if_pos hnext]
  split_ifs
  · norm_num
  · exact hnext

theorem mirror_slidRoll (hroll : s.roll ≠ 0) (hdt : 0 ≤ dt) :
    s.mirror.slidRoll dt = -s.slidRoll dt := by
  have hlies : s.mirror.roll = -s.roll := rfl
  rw [slidRoll_exact, slidRoll_exact, hlies]
  rcases lt_or_gt_of_ne hroll with hneg | hpos
  · have hnext : s.roll + -1 * 2.5 * dt < 0 := by linarith
    have hodd : -s.roll + 1 * 2.5 * dt = -(s.roll + -1 * 2.5 * dt) := by ring
    rw [if_pos (neg_pos.mpr hneg), if_neg (not_lt.mpr hneg.le), hodd, abs_neg,
      if_pos (neg_pos.mpr hnext), if_neg (not_lt.mpr hnext.le)]
    split_ifs <;> ring
  · have hnext : 0 < s.roll + 1 * 2.5 * dt := by linarith
    have hodd : -s.roll + -1 * 2.5 * dt = -(s.roll + 1 * 2.5 * dt) := by ring
    rw [if_neg (not_lt.mpr (neg_nonpos.mpr hpos.le)), if_pos hpos, hodd, abs_neg,
      if_neg (not_lt.mpr (neg_nonpos.mpr hnext.le)), if_pos hnext]
    split_ifs <;> ring

theorem mirror_slide (hroll : s.roll ≠ 0) (hdt : 0 ≤ dt) :
    s.mirror.slide dt = (s.slide dt).mirror := by
  have hzero : (CFloat.ofInt 0 : ℚ) = -CFloat.ofInt 0 := neg_zero.symm
  rw [slide_eq, slide_eq, mirror_slidRoll s dt hroll hdt]
  exact congrArg
    (fun w => { s.mirror with v := s.slidSpeed dt, w := w, roll := -s.slidRoll dt })
    hzero

theorem slidRoll_ne_zero (hroll : s.roll ≠ 0) (hdt : 0 ≤ dt) : s.slidRoll dt ≠ 0 := by
  rcases lt_or_gt_of_ne hroll with hneg | hpos
  · have hmirror : 0 < s.mirror.slidRoll dt := slidRoll_pos s.mirror dt (neg_pos.mpr hneg) hdt
    rw [mirror_slidRoll s dt hroll hdt] at hmirror
    exact (neg_pos.mp hmirror).ne
  · exact (slidRoll_pos s dt hpos hdt).ne'

/-! ### A step -/

variable (hsin : ∀ a : ℚ, CTrig.sin (-a) = -CTrig.sin a)
  (hcos : ∀ a : ℚ, CTrig.cos (-a) = CTrig.cos a)

include hsin hcos in
theorem mirror_stepTipped (hroll : s.roll ≠ 0) (hdt : 0 ≤ dt) :
    s.mirror.stepTipped dt = (s.stepTipped dt).mirror := by
  unfold stepTipped
  rw [mirror_slide s dt hroll hdt, mirror_integrate hsin hcos]
  rfl

include hsin hcos in
/-- The mirrored kart does what the kart does, mirrored. -/
theorem mirror_step (c : StepCmd ℚ) (hside : s.OnSide) (hdt : 0 ≤ c.dt)
    (htip : 0 ≤ s.p.aTipLeft + s.p.aTipRight) :
    s.mirror.step c.mirror = (s.step c).mirror := by
  have hplanar := mirror_stepPlanar hsin hcos s c
  unfold step
  by_cases htipped : s.tipped = true
  · rw [if_pos htipped]
    exact (if_pos htipped).trans (mirror_stepTipped s c.dt hsin hcos (hside htipped) hdt)
  · rw [if_neg htipped]
    refine (if_neg htipped).trans ?_
    rw [hplanar]
    dsimp only
    by_cases hair : (s.stepPlanar c).air = true
    · rw [if_pos hair]
      exact if_pos hair
    · rw [if_neg hair]
      refine (if_neg hair).trans ?_
      apply mirror_stepRoll
      rw [(stepPlanar_frame s c).1]
      exact htip

theorem OnSide.swing (h : lift ≠ 0) (htipped : s.tipped = false) : (s.swing lift dt).OnSide := by
  intro hnow
  by_cases hback : s.nextAngle dt lift ≤ CFloat.ofInt 0
  · rw [swing_back s dt hback, htipped] at hnow
    exact absurd hnow Bool.false_ne_true
  · have hangle : (0 : ℚ) < s.nextAngle dt lift := not_le.mp hback
    have hlift : (CFloat.ofInt lift : ℚ) ≠ 0 := Int.cast_ne_zero.mpr h
    rw [swing_up s dt hback]
    exact mul_ne_zero hlift hangle.ne'

theorem OnSide.stepRoll (htipped : s.tipped = false) : (s.stepRoll dt).OnSide := by
  unfold Vehicle.stepRoll
  split_ifs with hdown hoff
  · intro hnow
    rw [htipped] at hnow
    exact absurd hnow Bool.false_ne_true
  · exact OnSide.swing s dt hoff htipped
  · exact OnSide.swing s dt hdown htipped

theorem OnSide.step (c : StepCmd ℚ) (hside : s.OnSide) (hdt : 0 ≤ c.dt) : (s.step c).OnSide := by
  unfold Vehicle.step
  by_cases htipped : s.tipped = true
  · rw [if_pos htipped]
    have hroll : ((s.slide c.dt).integrate c.dt).roll = s.slidRoll c.dt :=
      (integrate_frame (s.slide c.dt) c.dt).2.2
    intro
    change ((s.slide c.dt).integrate c.dt).roll ≠ 0
    rw [hroll]
    exact slidRoll_ne_zero s c.dt (hside htipped) hdt
  · have hplanar : (s.stepPlanar c).tipped = false :=
      (stepPlanar_frame s c).2.trans (Bool.eq_false_iff.mpr htipped)
    rw [if_neg htipped]
    dsimp only
    split_ifs
    · intro hnow
      rw [hplanar] at hnow
      exact absurd hnow Bool.false_ne_true
    · exact OnSide.stepRoll _ _ hplanar

end Roll

end Vehicle

end sim

end KartFirmware

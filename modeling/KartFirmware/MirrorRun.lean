import KartFirmware.Mirror
import KartFirmware.Symmetry

/-!
# The mirrored scenario

A scenario driven the other way round: the script turns where it turned the other way, and
the load, the ground and the walls are mirrored.  In exact arithmetic the whole loop runs
mirrored, the gamepad, the controller and the vehicle, so that the aggregates, which the
asserts are about, come out the same (`mirrored_scenario`).

One of them does not: a kart that goes straight on has its margin measured against the left
side.  With a centred load that is the same on both sides.
-/

set_option linter.unusedSectionVars false

namespace KartFirmware

def PadInputs.mirror (p : PadInputs ℚ) : PadInputs ℚ := { p with x := -p.x, rx := -p.rx }

/-- The same controller with its wheels exchanged. -/
def KartController.mirror (k : KartController ℚ) : KartController ℚ :=
  { k with
    pad := k.pad.mirror
    tel := mirrorStick.telemetry k.tel
    loop := mirrorStick.loop k.loop }

def CtrlOutputs.swap (out : CtrlOutputs ℚ) : CtrlOutputs ℚ :=
  { out with outL := out.outR, outR := out.outL }

/-- Both motors are mounted the same way. -/
def KartConfig.SameMounting (cfg : KartConfig ℚ) : Prop := cfg.motInvL = 0 ↔ cfg.motInvR = 0

theorem routeOutputs_mirror {cfg : KartConfig ℚ} (h : cfg.SameMounting) (d : DriveResult ℚ) :
    routeOutputs cfg (mirrorStick.driveResult d) = (routeOutputs cfg d).swap := by
  have hsame : cfg.motInvL ≠ 0 ↔ cfg.motInvR ≠ 0 := not_congr h
  have hmount : ∀ out : ℚ,
      (if cfg.motInvL ≠ 0 then -out else out) = if cfg.motInvR ≠ 0 then -out else out := by
    intro out
    rw [if_congr hsame rfl rfl]
  have hleft : (mirrorStick.driveResult d).outL = d.outR := rfl
  have hright : (mirrorStick.driveResult d).outR = d.outL := rfl
  unfold routeOutputs CtrlOutputs.swap
  simp only [hleft, hright, hmount]
  by_cases hswap : cfg.motSwapLr ≠ 0
  · simp only [if_pos hswap]
    rfl
  · simp only [if_neg hswap]
    rfl

/-- A tick under the mirrored stick. -/
theorem KartController.mirror_tick {k : KartController ℚ} (hcfg : k.cfg.InRangeAnyMix)
    (hmount : k.cfg.SameMounting) (nowUs : Int) :
    k.mirror.tick nowUs = ((k.tick nowUs).1.mirror, (k.tick nowUs).2.swap) := by
  let e : TickIn ℚ := { nowUs := nowUs, pad := k.pad, cfg := k.cfg }
  have htick := mirrorStick.tick_eq k.loop (e := e) hcfg
  have hdrive := mirrorStick.drive_eq (k.loop.arm e.cfg e.inputs) (e := e) hcfg
  rw [← mirrorStick.arm_eq] at hdrive
  have hout : ((mirrorStick.loop k.loop).tick (mirrorStick.tickIn e)).2.out =
      (k.loop.tick e).2.out.swap := by
    have hroute := routeOutputs_mirror hmount ((k.loop.arm e.cfg e.inputs).drive e.cfg e.inputs).2
    exact (congrArg (fun r => routeOutputs k.cfg r.2) hdrive).trans hroute
  have hmirror : k.mirror.tick nowUs =
      ({ k.mirror with
          tel := ((mirrorStick.loop k.loop).tick (mirrorStick.tickIn e)).2.tel
          loop := ((mirrorStick.loop k.loop).tick (mirrorStick.tickIn e)).1 },
        ((mirrorStick.loop k.loop).tick (mirrorStick.tickIn e)).2.out) := rfl
  rw [hmirror, htick.1, htick.2, hout]
  rfl

namespace sim

def PadCmd.mirror (c : PadCmd ℚ) : PadCmd ℚ := { c with x := -c.x }

namespace SimController

def mirror (s : SimController ℚ) : SimController ℚ :=
  { s with ctrl := s.ctrl.mirror, cmd := s.cmd.mirror, outL := s.outR, outR := s.outL }

theorem mirror_new (cfg : KartConfig ℚ) (calibrated : Bool) :
    (new cfg calibrated).mirror = new cfg calibrated := by
  rfl

theorem mirror_update (a : RumbleAdvisor) (tel : CtrlTelemetry ℚ) (pad : PadInputs ℚ)
    (nowUs : Int) :
    a.update (mirrorStick.telemetry tel) pad.mirror nowUs = a.update tel pad nowUs := by
  have hpush : pushing pad.mirror = pushing pad :=
    congrArg (fun push : ℚ => decide (push > hw.PUSH_MIN) ||
      decide (CFloat.fabs pad.ry > hw.PUSH_MIN)) (fabs_neg pad.rx)
  unfold RumbleAdvisor.update
  rw [hpush]
  rfl

section Formulas

variable {F : Type} [CFloat F] (s : SimController F) (cfg : KartConfig F)

/-- A report has arrived, or not. -/
def heard : SimController F :=
  if s.cmd.connected && s.cmd.reports then { s with lastReportUs := s.nowUs } else s

/-- The tick of the controller and the advisor after it. -/
def ticked : SimController F :=
  let r := ((s.ctrl.setPad s.pad).setConfig cfg).tick s.nowUs
  let cue := s.rumble.update r.1.tel s.pad s.nowUs
  { s.applyOutputs r.2 with
    ctrl := r.1
    rumble := cue.1
    rumbles := if cue.2.active then s.rumbles + 1 else s.rumbles }

theorem tickPowered_eq : s.tickPowered cfg = s.heard.ticked cfg := rfl

/-- The script of the next tick. -/
def scripted (script : F → PadCmd F) (t : F) : SimController F :=
  { s with nowUs := s.nowUs + CFloat.toUInt32 (hw.CTRL_DT_S * 1e6 : F), cmd := script t }

/-- What the vehicle is told by a powered controller. -/
def drives : StepCmd F :=
  { mode := if s.brakeOut then .brake else .drive
    outL := s.outL
    outR := s.outR
    cap := s.cap
    dt := hw.CTRL_DT_S }

def released : StepCmd F := { mode := .float, outL := 0, outR := 0, cap := 0, dt := hw.CTRL_DT_S }

theorem command_eq (script : F → PadCmd F) (t : F) :
    s.command script cfg t =
      if (s.scripted script t).cmd.sysPower then
        ((s.scripted script t).tickPowered cfg, ((s.scripted script t).tickPowered cfg).drives)
      else (s.scripted script t, released) := rfl

theorem command_dt (script : F → PadCmd F) (t : F) :
    (s.command script cfg t).2.dt = hw.CTRL_DT_S := by
  rw [command_eq]
  split_ifs <;> rfl

end Formulas

theorem mirror_heard (s : SimController ℚ) : s.mirror.heard = s.heard.mirror := by
  unfold heard
  by_cases hreport : (s.cmd.connected && s.cmd.reports) = true
  · rw [if_pos hreport]
    exact if_pos hreport
  · rw [if_neg hreport]
    exact if_neg hreport

theorem mirror_applyOutputs (s : SimController ℚ) (out : CtrlOutputs ℚ) :
    s.mirror.applyOutputs out.swap = (s.applyOutputs out).mirror := rfl

variable {cfg : KartConfig ℚ} (hcfg : cfg.InRangeAnyMix) (hmount : cfg.SameMounting)

include hcfg hmount

theorem mirror_ticked (s : SimController ℚ) : s.mirror.ticked cfg = (s.ticked cfg).mirror := by
  have htick : ((s.mirror.ctrl.setPad s.mirror.pad).setConfig cfg).tick s.nowUs =
      ((((s.ctrl.setPad s.pad).setConfig cfg).tick s.nowUs).1.mirror,
        (((s.ctrl.setPad s.pad).setConfig cfg).tick s.nowUs).2.swap) :=
    KartController.mirror_tick (k := (s.ctrl.setPad s.pad).setConfig cfg) hcfg hmount s.nowUs
  have hcue := mirror_update s.rumble (((s.ctrl.setPad s.pad).setConfig cfg).tick s.nowUs).1.tel
    s.pad s.nowUs
  have hstate : s.mirror.ticked cfg =
      let r := ((s.mirror.ctrl.setPad s.mirror.pad).setConfig cfg).tick s.nowUs
      let cue := s.rumble.update r.1.tel s.pad.mirror s.nowUs
      { s.mirror.applyOutputs r.2 with
        ctrl := r.1
        rumble := cue.1
        rumbles := if cue.2.active then s.rumbles + 1 else s.rumbles } := rfl
  rw [hstate, htick]
  dsimp only
  rw [mirror_applyOutputs]
  exact congrArg
    (fun cue : RumbleAdvisor × RumbleCmd =>
      { (s.applyOutputs (((s.ctrl.setPad s.pad).setConfig cfg).tick s.nowUs).2).mirror with
        ctrl := (((s.ctrl.setPad s.pad).setConfig cfg).tick s.nowUs).1.mirror
        rumble := cue.1
        rumbles := if cue.2.active then s.rumbles + 1 else s.rumbles })
    hcue

theorem mirror_command (s : SimController ℚ) (script : ℚ → PadCmd ℚ) (t : ℚ) :
    s.mirror.command (fun t => (script t).mirror) cfg t =
      ((s.command script cfg t).1.mirror, (s.command script cfg t).2.mirror) := by
  have hscripted : s.mirror.scripted (fun t => (script t).mirror) t =
      (s.scripted script t).mirror := rfl
  have hticked : (s.scripted script t).mirror.tickPowered cfg =
      ((s.scripted script t).tickPowered cfg).mirror := by
    rw [tickPowered_eq, tickPowered_eq, mirror_heard, mirror_ticked hcfg hmount]
  rw [command_eq, command_eq, hscripted, hticked]
  by_cases hpower : (s.scripted script t).cmd.sysPower = true
  · rw [if_pos hpower]
    exact if_pos hpower
  · rw [if_neg hpower]
    exact if_neg hpower

end SimController

/-! ### The loop -/

namespace SimRun

section Formulas

variable {F : Type} [CFloat F] [CSqrt F] (s : SimRun F) (ctrl : SimController F) (veh : Vehicle F)

/-- The power has gone since the last turn. -/
def cut : Bool := s.wasPowered && !ctrl.cmd.sysPower

/-- Where the power went. -/
def cutX : F := if s.cut ctrl then veh.x else s.xCut
def cutY : F := if s.cut ctrl then veh.y else s.yCut

def coasted : F :=
  if !ctrl.cmd.sysPower then
    CSqrt.sqrt ((veh.x - s.cutX ctrl veh) * (veh.x - s.cutX ctrl veh) +
      (veh.y - s.cutY ctrl veh) * (veh.y - s.cutY ctrl veh))
  else s.r.coastDist

theorem record_eq :
    s.record ctrl veh =
      { veh := veh
        ctrl := ctrl
        r := s.r.observe veh ctrl.ctrl.tel s.wasArmed (s.coasted ctrl veh)
        wasArmed := ctrl.ctrl.tel.armed
        wasPowered := ctrl.cmd.sysPower
        xCut := s.cutX ctrl veh
        yCut := s.cutY ctrl veh } := rfl

end Formulas

variable [CSqrt ℚ] (s : SimRun ℚ) (margin : ℚ)

/-- The mirrored run, which has seen its own margins. -/
def mirror : SimRun ℚ :=
  { s with
    veh := s.veh.mirror
    ctrl := s.ctrl.mirror
    r := { s.r with minTipMargin := margin }
    yCut := -s.yCut }

theorem mirror_cutY (ctrl : SimController ℚ) (veh : Vehicle ℚ) :
    (s.mirror margin).cutY ctrl.mirror veh.mirror = -s.cutY ctrl veh := by
  unfold cutY
  by_cases hcut : s.cut ctrl = true
  · rw [if_pos hcut]
    exact if_pos hcut
  · rw [if_neg hcut]
    exact if_neg hcut

theorem mirror_coasted (ctrl : SimController ℚ) (veh : Vehicle ℚ) :
    (s.mirror margin).coasted ctrl.mirror veh.mirror = s.coasted ctrl veh := by
  have hsquare : (-veh.y - -s.cutY ctrl veh) * (-veh.y - -s.cutY ctrl veh) =
      (veh.y - s.cutY ctrl veh) * (veh.y - s.cutY ctrl veh) := by
    ring
  unfold coasted
  rw [mirror_cutY]
  exact congrArg
    (fun square : ℚ => if !ctrl.cmd.sysPower then
      CSqrt.sqrt ((veh.x - s.cutX ctrl veh) * (veh.x - s.cutX ctrl veh) + square)
      else s.r.coastDist)
    hsquare

theorem mirror_observe (r : RunResult ℚ) (tel : CtrlTelemetry ℚ) (veh : Vehicle ℚ)
    (wasArmed : Bool) (coastDist : ℚ) :
    ({ r with minTipMargin := margin } : RunResult ℚ).observe veh.mirror
        (mirrorStick.telemetry tel) wasArmed coastDist =
      { r.observe veh tel wasArmed coastDist with
        minTipMargin := stdMin margin veh.mirror.tipMargin } := by
  have hal : CFloat.fabs veh.mirror.aLat = CFloat.fabs veh.aLat := by
    rw [veh.mirror_aLat, fabs_neg]
  have hlift : veh.mirror.liftSide ≠ 0 ↔ veh.liftSide ≠ 0 := neg_ne_zero
  unfold RunResult.observe
  dsimp only
  rw [hal, decide_eq_decide.mpr hlift]
  rfl

theorem mirror_record (ctrl : SimController ℚ) (veh : Vehicle ℚ) :
    (s.mirror margin).record ctrl.mirror veh.mirror =
      (s.record ctrl veh).mirror (stdMin margin veh.mirror.tipMargin) := by
  rw [record_eq, record_eq, mirror_coasted, mirror_cutY]
  exact congrArg
    (fun r : RunResult ℚ =>
      ({ veh := veh.mirror
         ctrl := ctrl.mirror
         r := r
         wasArmed := ctrl.ctrl.tel.armed
         wasPowered := ctrl.cmd.sysPower
         xCut := s.cutX ctrl veh
         yCut := -s.cutY ctrl veh } : SimRun ℚ))
    (mirror_observe margin s.r ctrl.ctrl.tel veh s.wasArmed (s.coasted ctrl veh))

end SimRun

/-- The other way round. -/
def Scenario.mirror (sc : Scenario ℚ) : Scenario ℚ :=
  { sc with
    veh := sc.veh.map fun set veh => (set veh).mirror
    pad := fun t => (sc.pad t).mirror }

section Runs

variable [CTrig ℚ] [CSqrt ℚ] (sc : Scenario ℚ) (defaults : KartConfig ℚ)

theorem Scenario.mirror_vehicle : sc.mirror.vehicle = sc.vehicle.mirror := by
  unfold Scenario.vehicle Scenario.mirror
  cases sc.veh with
  | none => rfl
  | some set => rfl

/-- With one limit on both sides the margin does not ask for the side. -/
theorem Vehicle.tipMargin_same {s : Vehicle ℚ} (h : s.p.aTipLeft = s.p.aTipRight) :
    s.tipMargin = s.p.aTipRight - CFloat.fabs s.aLat := by
  unfold Vehicle.tipMargin
  rw [h, ite_self]

/-- A centred load has the same margin on both sides. -/
theorem Vehicle.mirror_tipMargin {s : Vehicle ℚ} (h : s.p.ycgM = 0) :
    s.mirror.tipMargin = s.tipMargin := by
  have hsides : s.p.aTipLeft = s.p.aTipRight := by
    have hoffset : s.p.wEff - s.p.ycgM = s.p.wEff + s.p.ycgM := by rw [h, sub_zero, add_zero]
    exact congrArg (fun side => G_MPS2 * side / s.p.hcgM) hoffset
  have hleft : s.mirror.p.aTipLeft = s.p.aTipRight := Vehicle.mirror_aTipLeft s.p
  have hright : s.mirror.p.aTipRight = s.p.aTipLeft := Vehicle.mirror_aTipRight s.p
  have hmirror : s.mirror.p.aTipLeft = s.mirror.p.aTipRight := by rw [hleft, hright, hsides]
  rw [Vehicle.tipMargin_same hmirror, Vehicle.tipMargin_same hsides, hright, hsides,
    Vehicle.mirror_aLat, fabs_neg]

theorem CTRL_DT_S_nonneg : (0 : ℚ) ≤ hw.CTRL_DT_S := by decide +kernel

/-- What the mirror asks of a vehicle: its tipping edges are on its two sides, and if it is
tipped it lies on one of them. -/
structure Vehicle.Balanced (s : Vehicle ℚ) : Prop where
  side : s.OnSide
  edges : 0 ≤ s.p.aTipLeft + s.p.aTipRight

theorem Vehicle.Fresh.balanced {s : Vehicle ℚ} (h : s.Fresh)
    (hedges : 0 ≤ s.p.aTipLeft + s.p.aTipRight) : s.Balanced := by
  obtain ⟨q, hq⟩ := h
  refine ⟨?_, hedges⟩
  intro htipped
  rw [hq] at htipped
  exact absurd htipped Bool.false_ne_true

theorem Scenario.balanced_simAt (hveh : sc.vehicle.Balanced) (n : Nat) :
    (sc.simAt defaults n).veh.Balanced ∧ (sc.simAt defaults n).veh.p = sc.vehicle.p := by
  induction n with
  | zero => exact ⟨hveh, rfl⟩
  | succ n ih =>
    have hstep : (sc.simAt defaults (n + 1)).veh =
        (sc.simAt defaults n).veh.step (sc.cmdAt defaults n) := by
      rw [sc.simAt_succ]
      rfl
    have hdt : 0 ≤ (sc.cmdAt defaults n).dt := by
      rw [sc.cmdAt_dt]
      exact CTRL_DT_S_nonneg
    have hp := Vehicle.step_p (sc.simAt defaults n).veh (sc.cmdAt defaults n)
    rw [hstep]
    refine ⟨⟨ih.1.side.step _ _ hdt, ?_⟩, hp.trans ih.2⟩
    rw [hp]
    exact ih.1.edges

variable (hsin : ∀ a : ℚ, CTrig.sin (-a) = -CTrig.sin a)
  (hcos : ∀ a : ℚ, CTrig.cos (-a) = CTrig.cos a) {sc defaults}

include hsin hcos

/-- One turn of the loop. -/
theorem SimRun.mirror_tick {cfg : KartConfig ℚ} (hcfg : cfg.InRangeAnyMix)
    (hmount : cfg.SameMounting) {s : SimRun ℚ} (hveh : s.veh.Balanced) (margin : ℚ) :
    SimRun.tick sc.mirror cfg (s.mirror margin) =
      (SimRun.tick sc cfg s).mirror
        (stdMin margin (SimRun.tick sc cfg s).veh.mirror.tipMargin) := by
  have hcommand := SimController.mirror_command hcfg hmount s.ctrl sc.pad s.veh.t
  have hdt : 0 ≤ (s.ctrl.command sc.pad cfg s.veh.t).2.dt := by
    rw [SimController.command_dt]
    exact CTRL_DT_S_nonneg
  have hstep := Vehicle.mirror_step s.veh hsin hcos (s.ctrl.command sc.pad cfg s.veh.t).2
    hveh.side hdt hveh.edges
  have htick : SimRun.tick sc.mirror cfg (s.mirror margin) =
      (s.mirror margin).record
        (s.ctrl.mirror.command (fun t => (sc.pad t).mirror) cfg s.veh.t).1
        (s.veh.mirror.step
          (s.ctrl.mirror.command (fun t => (sc.pad t).mirror) cfg s.veh.t).2) := rfl
  rw [htick, hcommand, hstep]
  exact SimRun.mirror_record ..

theorem Scenario.mirror_simAt (hveh : sc.vehicle.Balanced)
    (hcfg : (sc.config defaults).InRangeAnyMix) (hmount : (sc.config defaults).SameMounting)
    (n : Nat) :
    ∃ margin, sc.mirror.simAt defaults n = (sc.simAt defaults n).mirror margin ∧
      (sc.vehicle.p.ycgM = 0 → margin = (sc.simAt defaults n).r.minTipMargin) := by
  induction n with
  | zero =>
    have hctrl := SimController.mirror_new defaults sc.calibrated
    have hstart : (sc.start defaults).mirror (sc.start defaults).r.minTipMargin =
        { sc.start defaults with
          veh := sc.vehicle.mirror
          ctrl := (SimController.new defaults sc.calibrated).mirror } := rfl
    refine ⟨(sc.start defaults).r.minTipMargin, ?_, fun _ => rfl⟩
    refine Eq.trans ?_ hstart.symm
    rw [hctrl, ← sc.mirror_vehicle]
    rfl
  | succ n ih =>
    obtain ⟨margin, hmirror, hmargin⟩ := ih
    obtain ⟨hbalanced, hp⟩ := sc.balanced_simAt defaults hveh n
    refine ⟨stdMin margin (sc.simAt defaults (n + 1)).veh.mirror.tipMargin, ?_, ?_⟩
    · rw [Scenario.simAt_succ, Scenario.simAt_succ, hmirror]
      exact SimRun.mirror_tick hsin hcos hcfg hmount hbalanced margin
    · intro hcg
      have hcgNow : (sc.simAt defaults (n + 1)).veh.p.ycgM = 0 := by
        rw [(sc.balanced_simAt defaults hveh (n + 1)).2, hcg]
      rw [Vehicle.mirror_tipMargin hcgNow, hmargin hcg, Scenario.simAt_succ]
      rfl

/-- **A scenario and its mirror image.** -/
theorem mirrored_scenario (hveh : sc.vehicle.Fresh)
    (hedges : 0 ≤ sc.vehicle.p.aTipLeft + sc.vehicle.p.aTipRight)
    (hcfg : (sc.config defaults).InRangeAnyMix) (hmount : (sc.config defaults).SameMounting) :
    (∀ n, (sc.mirror.simAt defaults n).veh = (sc.simAt defaults n).veh.mirror ∧
        (sc.mirror.simAt defaults n).ctrl.ctrl.tel =
          mirrorStick.telemetry (sc.simAt defaults n).ctrl.ctrl.tel) ∧
      runScenario sc.mirror defaults =
        { runScenario sc defaults with
          minTipMargin := (runScenario sc.mirror defaults).minTipMargin } ∧
      (sc.vehicle.p.ycgM = 0 →
        (runScenario sc.mirror defaults).minTipMargin =
          (runScenario sc defaults).minTipMargin) := by
  have hrun := Scenario.mirror_simAt hsin hcos (hveh.balanced hedges) hcfg hmount
  have hsteps : sc.mirror.steps = sc.steps := rfl
  refine ⟨?_, ?_, ?_⟩
  · intro n
    obtain ⟨margin, hmirror, -⟩ := hrun n
    rw [hmirror]
    exact ⟨rfl, rfl⟩
  · obtain ⟨margin, hmirror, -⟩ := hrun sc.steps
    unfold runScenario
    rw [hsteps, hmirror]
    rfl
  · intro hcg
    obtain ⟨margin, hmirror, hmargin⟩ := hrun sc.steps
    unfold runScenario
    rw [hsteps, hmirror]
    exact hmargin hcg

end Runs

/-! ### A child on the other side -/

section Bench

/-- A number to sixty binary digits, cut off towards zero. -/
noncomputable def sixtyBits (x : ℝ) : ℚ :=
  if 0 ≤ x then ⌊x * 2 ^ 60⌋ / 2 ^ 60 else -(⌊-x * 2 ^ 60⌋ / 2 ^ 60)

theorem sixtyBits_neg (x : ℝ) : sixtyBits (-x) = -sixtyBits x := by
  unfold sixtyBits
  rcases lt_trichotomy x 0 with hneg | rfl | hpos
  · rw [if_pos (by linarith), if_neg (by linarith), neg_neg]
  · simp
  · rw [if_neg (by linarith), if_pos hpos.le, neg_neg]

/-- The functions of the standard library, to sixty digits. -/
noncomputable instance sixtyTrig : CTrig ℚ where
  sin a := sixtyBits (Real.sin a)
  cos a := sixtyBits (Real.cos a)
  atan2 y x := sixtyBits (Complex.arg ⟨x, y⟩)

noncomputable instance sixtySqrt : CSqrt ℚ := ⟨fun a => sixtyBits (Real.sqrt a)⟩

def sameMountCfg : KartConfig ℚ := { exactCfg with motInvR := 0 }

/-- A child on the right, driven the other way round, is the mirror image of one on the left
all along, and lifts a wheel exactly when that one does. -/
theorem mirrored_scenario_child :
    (∀ n, ((enfantSeulCote (F := ℚ)).mirror.simAt sameMountCfg n).veh =
        ((enfantSeulCote (F := ℚ)).simAt sameMountCfg n).veh.mirror) ∧
      (runScenario (enfantSeulCote (F := ℚ)).mirror sameMountCfg).wheelLifted =
        (runScenario (enfantSeulCote (F := ℚ)) sameMountCfg).wheelLifted := by
  have hsin : ∀ a : ℚ, CTrig.sin (-a) = -CTrig.sin a := by
    intro a
    change sixtyBits (Real.sin ((-a : ℚ) : ℝ)) = -sixtyBits (Real.sin a)
    rw [Rat.cast_neg, Real.sin_neg, sixtyBits_neg]
  have hcos : ∀ a : ℚ, CTrig.cos (-a) = CTrig.cos a := by
    intro a
    change sixtyBits (Real.cos ((-a : ℚ) : ℝ)) = sixtyBits (Real.cos a)
    rw [Rat.cast_neg, Real.cos_neg]
  have hfresh : (enfantSeulCote : Scenario ℚ).vehicle.Fresh :=
    (Vehicle.fresh_new .default).settings _ none none
  have hedges : 0 ≤ (enfantSeulCote : Scenario ℚ).vehicle.p.aTipLeft +
      (enfantSeulCote : Scenario ℚ).vehicle.p.aTipRight := by
    decide +kernel
  have hcfg : ((enfantSeulCote : Scenario ℚ).config sameMountCfg).InRangeAnyMix := by
    decide +kernel
  have hmount : ((enfantSeulCote : Scenario ℚ).config sameMountCfg).SameMounting :=
    iff_of_true rfl rfl
  obtain ⟨hsteps, hresult, -⟩ := mirrored_scenario hsin hcos hfresh hedges hcfg hmount
  have hlifted := congrArg RunResult.wheelLifted hresult
  exact ⟨fun n => (hsteps n).1, hlifted⟩

end Bench

end sim

end KartFirmware

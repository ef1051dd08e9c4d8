import KartFirmware.ControllerCore
import KartFirmware.RateLimit
import Mathlib.Algebra.Order.Field.Rat
import Mathlib.Tactic.FieldSimp
import Mathlib.Tactic.NormNum

/-!
# The control math in exact arithmetic

At `ℚ` the functions of `ControlMath` and the pieces of `step` get their
mathematical reading: `slew` is an `approach`, the ramp is an `asymStep` whose
two steps are fixed by the configuration, and the deadzone, the exponential and
the mixers are odd.  Everything that is proved about runs in exact arithmetic
goes through the lemmas of this file.
-/

namespace KartFirmware

open RateLimit

/-! ### The deadzone and the mixers -/

theorem clampf_exact (v lo hi : ℚ) :
    ctl.clampf v lo hi = if v < lo then lo else if hi < v then hi else v := rfl

theorem deadzone_exact (v dz : ℚ) :
    ctl.deadzone v dz =
      if |v| ≤ dz then 0 else (if 0 < v then 1 else -1) * (|v| - dz) / (1 - dz) := rfl

theorem mixArcade_exact (fwd turn gain : ℚ) :
    ctl.mixArcade fwd turn gain =
      (ctl.clampf (fwd + turn * gain) (-1) 1, ctl.clampf (fwd - turn * gain) (-1) 1) := rfl

theorem expo_exact (x e : ℚ) :
    mixdet.expo x e = (1 - ctl.clampf e 0 1) * x + ctl.clampf e 0 1 * x * x * x := rfl

theorem fabs_neg (a : ℚ) : CFloat.fabs (-a) = CFloat.fabs a := abs_neg a

theorem clampf_of_mem {v lo hi : ℚ} (hlo : lo ≤ v) (hhi : v ≤ hi) : ctl.clampf v lo hi = v := by
  rw [clampf_exact, if_neg (not_lt.mpr hlo), if_neg (not_lt.mpr hhi)]

theorem clampf_mem {v lo hi : ℚ} (h : lo ≤ hi) :
    lo ≤ ctl.clampf v lo hi ∧ ctl.clampf v lo hi ≤ hi := by
  rw [clampf_exact]
  split_ifs with hlow hhigh
  · exact ⟨le_refl lo, h⟩
  · exact ⟨h, le_refl hi⟩
  · exact ⟨not_lt.mp hlow, not_lt.mp hhigh⟩

theorem clampf_neg {v b : ℚ} (hb : 0 ≤ b) : ctl.clampf (-v) (-b) b = -ctl.clampf v (-b) b := by
  rw [clampf_exact, clampf_exact]
  split_ifs <;> linarith

/-- A deadzone that is not negative maps 0 to 0, and the rest is odd. -/
theorem deadzone_neg {v dz : ℚ} (hdz : 0 ≤ dz) :
    ctl.deadzone (-v) dz = -ctl.deadzone v dz := by
  rw [deadzone_exact, deadzone_exact, abs_neg]
  by_cases hin : |v| ≤ dz
  · rw [if_pos hin, if_pos hin, neg_zero]
  · rw [if_neg hin, if_neg hin]
    rcases lt_trichotomy v 0 with hneg | hzero | hpos
    · rw [if_pos (neg_pos.mpr hneg), if_neg (not_lt.mpr hneg.le)]
      ring
    · rw [hzero, abs_zero] at hin
      exact absurd hdz hin
    · rw [if_neg (by linarith), if_pos hpos]
      ring

theorem expo_neg (x e : ℚ) : mixdet.expo (-x) e = -mixdet.expo x e := by
  rw [expo_exact, expo_exact]
  ring

theorem mixArcade_neg_turn (fwd turn gain : ℚ) :
    ctl.mixArcade fwd (-turn) gain = (ctl.mixArcade fwd turn gain).swap := by
  rw [mixArcade_exact, mixArcade_exact, neg_mul, sub_neg_eq_add, ← sub_eq_add_neg]
  rfl

theorem mixArcade_neg (fwd turn gain : ℚ) :
    ctl.mixArcade (-fwd) (-turn) gain =
      (-(ctl.mixArcade fwd turn gain).1, -(ctl.mixArcade fwd turn gain).2) := by
  have hone : (0 : ℚ) ≤ 1 := zero_le_one
  rw [mixArcade_exact, mixArcade_exact]
  simp only [← clampf_neg hone]
  congr 2 <;> ring

theorem abs_mixArcade_le (fwd turn gain : ℚ) :
    |(ctl.mixArcade fwd turn gain).1| ≤ 1 ∧ |(ctl.mixArcade fwd turn gain).2| ≤ 1 := by
  rw [mixArcade_exact]
  exact ⟨abs_le.mpr (clampf_mem (by norm_num)), abs_le.mpr (clampf_mem (by norm_num))⟩

theorem mixerFor_neg_turn (type : Int) (fwd turn : ℚ) (cfg : KartConfig ℚ) :
    mixerFor type fwd (-turn) cfg = (mixerFor type fwd turn cfg).swap := by
  unfold mixerFor
  split_ifs
  · rw [MixerExpo.mix, MixerExpo.mix, expo_neg, mixArcade_neg_turn]
  · rw [MixerLinear.mix, MixerLinear.mix, mixArcade_neg_turn]

theorem mixerFor_neg (type : Int) (fwd turn : ℚ) (cfg : KartConfig ℚ) :
    mixerFor type (-fwd) (-turn) cfg =
      (-(mixerFor type fwd turn cfg).1, -(mixerFor type fwd turn cfg).2) := by
  unfold mixerFor
  split_ifs
  · rw [MixerExpo.mix, MixerExpo.mix, expo_neg, expo_neg, mixArcade_neg]
  · rw [MixerLinear.mix, MixerLinear.mix, mixArcade_neg]

theorem abs_mixerFor_le (type : Int) (fwd turn : ℚ) (cfg : KartConfig ℚ) :
    |(mixerFor type fwd turn cfg).1| ≤ 1 ∧ |(mixerFor type fwd turn cfg).2| ≤ 1 := by
  unfold mixerFor
  split_ifs
  · exact abs_mixArcade_le _ _ _
  · exact abs_mixArcade_le _ _ _

/-! ### The ramp -/

theorem slew_exact {target current rate dt : ℚ} (h : 0 ≤ rate * dt) :
    ctl.slew target current rate dt = approach target current (rate * dt) := by
  have hslew : ctl.slew target current rate dt =
      if rate * dt < target - current then current + rate * dt
      else if target - current < -(rate * dt) then current - rate * dt
      else target := rfl
  rw [hslew]
  split_ifs with hup hdown
  · rw [approach_up h (by linarith), min_eq_right (by linarith)]
  · rw [approach_down h (by linarith), max_eq_left (by linarith)]
  · rw [approach, min_eq_left (by linarith), max_eq_right (by linarith)]

theorem rampSide_exact {target current up dn dt : ℚ} (hdt : 0 < dt) :
    ctl.rampSide target current up dn dt = sideStep target current (up * dt) (dn * dt) := by
  have hside : ctl.rampSide target current up dn dt =
      if (if |current| < |target| then up else dn) ≤ 0 then target
      else ctl.slew target current (if |current| < |target| then up else dn) dt := rfl
  rw [hside, sideStep, ← ite_mul, limit]
  generalize (if |current| < |target| then up else dn) = rate
  by_cases hrate : rate ≤ 0
  · rw [if_pos hrate, if_pos (mul_nonpos_of_nonpos_of_nonneg hrate hdt.le)]
  · have hpos : 0 < rate * dt := mul_pos (not_le.mp hrate) hdt
    rw [if_neg hrate, if_neg (not_le.mpr hpos), slew_exact hpos.le]

/-- The ramp is the asymmetric limiter whose steps are its rates over `dt`. -/
theorem ramp_exact {target current up dn dt : ℚ} (hdt : 0 < dt) :
    ctl.ramp target current up dn dt = asymStep target current (up * dt) (dn * dt) := by
  have hramp : ctl.ramp target current up dn dt =
      if target * current < 0 then
        if 0 < dn then
          if decide (0 = ctl.slew 0 current dn dt) then ctl.rampSide target 0 up dn dt
          else ctl.slew 0 current dn dt
        else ctl.rampSide target 0 up dn dt
      else ctl.rampSide target current up dn dt := rfl
  rw [hramp, asymStep, rampSide_exact hdt, rampSide_exact hdt]
  by_cases hdn : 0 < dn
  · have hpos : 0 < dn * dt := mul_pos hdn hdt
    rw [if_pos hdn, if_pos hpos, slew_exact hpos.le]
    simp only [decide_eq_true_eq]
  · rw [if_neg hdn, if_neg (not_lt.mpr (mul_nonpos_of_nonpos_of_nonneg (not_lt.mp hdn) hdt.le))]

/-! ### One tick -/

theorem CTRL_DT_S_exact : (hw.CTRL_DT_S : ℚ) = 1 / 500 := rfl

theorem CTRL_DT_S_pos : (0 : ℚ) < hw.CTRL_DT_S := by
  rw [CTRL_DT_S_exact]
  norm_num

theorem stdMax_exact (a b : ℚ) : stdMax a b = max a b := by
  rw [max_def_lt]
  rfl

theorem commandRate_exact (cfg : KartConfig ℚ) (pctS : Int) :
    commandRate cfg pctS = (pctS / 100) * (1 / max (capFrac cfg) 0.05) := by
  unfold commandRate
  rw [stdMax_exact]
  rfl

/-- The step of the ramp for one tick at a rate of `pctS`, in command units. -/
def tickStep (cfg : KartConfig ℚ) (pctS : Int) : ℚ := commandRate cfg pctS * hw.CTRL_DT_S

theorem rampTick_exact (cfg : KartConfig ℚ) (target current : ℚ) :
    rampTick cfg target current =
      asymStep target current (tickStep cfg cfg.accelPctS) (tickStep cfg cfg.decelPctS) :=
  ramp_exact CTRL_DT_S_pos

theorem rampTick_neg (cfg : KartConfig ℚ) (target current : ℚ) :
    rampTick cfg (-target) (-current) = -rampTick cfg target current := by
  rw [rampTick_exact, rampTick_exact, asymStep_neg]

theorem abs_driveTarget_le (cfg : KartConfig ℚ) (p : PadInputs ℚ) :
    |(driveTarget cfg p).1| ≤ 1 ∧ |(driveTarget cfg p).2| ≤ 1 := by
  unfold driveTarget
  split_ifs
  · have hzero : |(0 : ℚ)| ≤ 1 := by norm_num
    exact ⟨hzero, hzero⟩
  · exact abs_mixerFor_le _ _ _ _

theorem abs_rampTick_le {cfg : KartConfig ℚ} {target current : ℚ} (ht : |target| ≤ 1)
    (hc : |current| ≤ 1) : |rampTick cfg target current| ≤ 1 := by
  rw [rampTick_exact]
  exact abs_asymStep_le ht hc

/-! ### A run in exact arithmetic -/

def exactCfg : KartConfig ℚ where
  dutyCapFrac := 1
  thrDeadzone := 0.06
  turnGain := 1
  mixType := 1
  mixExpoFwd := 0.5
  mixExpoTurn := 0.6
  accelPctS := 200
  decelPctS := 100
  motInvL := 0
  motInvR := 1
  motSwapLr := 0
  armHoldMs := 1000
  disarmS := 30
  ledCount := 10
  ledBrightness := 64

/-- START held for more than a second, then A held with the stick forward left. -/
def exactRun (cfg : KartConfig ℚ) (n : Nat) : TickIn ℚ where
  nowUs := 1100000 * n + 1
  pad :=
    { x := if n ≤ 1 then 0 else -1 / 2, y := if n ≤ 1 then 0 else 1, rx := 0, ry := 0
      connected := true, calibrated := true, estop := false, start := decide (n ≤ 1)
      drive := decide (1 < n), lastReportUs := 1100000 * n }
  cfg := cfg

theorem exactCfg_inRange : exactCfg.InRange := by decide +kernel

theorem exactCfg_inRangeAnyMix (type : Int) :
    ({ exactCfg with mixType := type } : KartConfig ℚ).InRangeAnyMix := by
  have hlinear : ({ exactCfg with mixType := 0 } : KartConfig ℚ).InRange := by decide +kernel
  exact hlinear

end KartFirmware

import KartFirmware.ExactControl
import KartFirmware.RateOrder
import Mathlib.Algebra.Order.Ring.Pow
import Mathlib.Tactic.Positivity
import Mathlib.Tactic.GCongr

/-!
# How the commands follow the stick

In exact arithmetic each part of the way from the stick to the motors is monotone: the
deadzone, the response curve of a mixer (`Curve`), the saturating sum and the ramp.  So
pushing the stick forward or to one side never takes the commands the other way
(`stick_acts_as_pushed`).

The ramp is not the same for one tick and for the two halves of it: the tick in which a
reversal arrives at zero grows on the other side for its whole length, not for what is
left of it (`ramp_split_iff`).
-/

namespace KartFirmware

open RateLimit

/-! ### The deadzone -/

section Deadzone

variable {v v' dz : ℚ}

theorem deadzone_eq (hdz : 0 ≤ dz) :
    ctl.deadzone v dz = (max (v - dz) 0 + min (v + dz) 0) / (1 - dz) := by
  rw [deadzone_exact]
  split_ifs with hin hpos
  · rw [abs_le] at hin
    rw [max_eq_right (by linarith), min_eq_right (by linarith), add_zero, zero_div]
  · rw [abs_of_pos hpos] at hin ⊢
    rw [max_eq_left (by linarith), min_eq_right (by linarith), one_mul, add_zero]
  · rw [abs_of_nonpos (not_lt.mp hpos)] at hin ⊢
    rw [max_eq_right (by linarith), min_eq_left (by linarith)]
    congr 1
    ring

theorem deadzone_mono (hdz : 0 ≤ dz) (hdz' : dz < 1) (h : v ≤ v') :
    ctl.deadzone v dz ≤ ctl.deadzone v' dz := by
  have hscale : 0 ≤ 1 - dz := by linarith
  rw [deadzone_eq hdz, deadzone_eq hdz]
  gcongr

theorem deadzone_pos (hdz' : dz < 1) (hv : 0 < v) (hout : dz < |v|) : 0 < ctl.deadzone v dz := by
  rw [deadzone_exact, if_neg (not_le.mpr hout), if_pos hv, one_mul]
  exact div_pos (by linarith) (by linarith)

theorem deadzone_one (hdz' : dz < 1) : ctl.deadzone 1 dz = 1 := by
  rw [deadzone_exact, abs_one, if_neg (not_le.mpr hdz'), if_pos zero_lt_one, one_mul]
  exact div_self (by linarith)

theorem deadzone_zero (hdz : 0 ≤ dz) : ctl.deadzone 0 dz = 0 := by
  rw [deadzone_exact, abs_zero, if_pos hdz]

theorem abs_deadzone_le (hdz : 0 ≤ dz) (hdz' : dz < 1) (hv : |v| ≤ 1) :
    |ctl.deadzone v dz| ≤ 1 := by
  rw [abs_le] at hv
  have hlow := deadzone_mono hdz hdz' hv.1
  have hhigh := deadzone_mono hdz hdz' hv.2
  rw [deadzone_neg hdz, deadzone_one hdz'] at hlow
  rw [deadzone_one hdz'] at hhigh
  exact abs_le.mpr ⟨hlow, hhigh⟩

end Deadzone

/-! ### Response curves -/

/-- An odd, growing curve through the corners. -/
structure Curve (f : ℚ → ℚ) : Prop where
  mono : Monotone f
  neg : ∀ x, f (-x) = -f x
  pos : ∀ x, 0 < x → 0 < f x
  one : f 1 = 1

theorem Curve.linear : Curve id :=
  ⟨monotone_id, fun _ => rfl, fun _ hx => hx, rfl⟩

theorem Curve.zero {f : ℚ → ℚ} (hf : Curve f) : f 0 = 0 := by
  have hodd := hf.neg 0
  rw [neg_zero] at hodd
  linarith

theorem Curve.abs_image_le {f : ℚ → ℚ} (hf : Curve f) {x : ℚ} (hx : |x| ≤ 1) : |f x| ≤ 1 := by
  rw [abs_le] at hx ⊢
  have hlow := hf.mono hx.1
  have hhigh := hf.mono hx.2
  rw [hf.neg, hf.one] at hlow
  rw [hf.one] at hhigh
  exact ⟨hlow, hhigh⟩

/-- The exponential, whatever its strength. -/
theorem Curve.expo (e : ℚ) : Curve fun x => mixdet.expo x e := by
  obtain ⟨hlow, hhigh⟩ := clampf_mem (v := e) (zero_le_one (α := ℚ))
  constructor
  · intro x x' hx
    have hcube : x ^ 3 ≤ x' ^ 3 := (Odd.strictMono_pow (by decide)).monotone hx
    have hlin := mul_le_mul_of_nonneg_left hx (sub_nonneg.mpr hhigh)
    have hcub := mul_le_mul_of_nonneg_left hcube hlow
    simp only [expo_exact]
    linarith
  · exact fun x => expo_neg x e
  · intro x hx
    have hcube : 0 < x ^ 3 := by positivity
    simp only [expo_exact]
    rcases hlow.eq_or_lt with hzero | hpos
    · rw [← hzero]
      linarith
    · nlinarith [mul_nonneg (sub_nonneg.mpr hhigh) hx.le, mul_pos hpos hcube]
  · simp only [expo_exact]
    ring

/-! ### Mixing -/

theorem clampf_mono {v v' lo hi : ℚ} (h : lo ≤ hi) (hv : v ≤ v') :
    ctl.clampf v lo hi ≤ ctl.clampf v' lo hi := by
  rw [clampf_exact, clampf_exact]
  split_ifs <;> linarith

/-- Every mixer is the arcade mix of two curves. -/
theorem mixerFor_curves (type : Int) (cfg : KartConfig ℚ) :
    ∃ f g, Curve f ∧ Curve g ∧
      ∀ fwd turn, mixerFor type fwd turn cfg = ctl.mixArcade (f fwd) (g turn) cfg.turnGain := by
  unfold mixerFor
  split_ifs
  · exact ⟨_, _, Curve.expo cfg.mixExpoFwd, Curve.expo cfg.mixExpoTurn, fun _ _ => rfl⟩
  · exact ⟨_, _, Curve.linear, Curve.linear, fun _ _ => rfl⟩

section Arcade

variable {fwd fwd' turn turn' gain : ℚ}

theorem mixArcade_mono_fwd (h : fwd ≤ fwd') :
    ctl.mixArcade fwd turn gain ≤ ctl.mixArcade fwd' turn gain := by
  rw [mixArcade_exact, mixArcade_exact]
  exact ⟨clampf_mono (by norm_num) (by linarith), clampf_mono (by norm_num) (by linarith)⟩

theorem mixArcade_mono_turn (hgain : 0 ≤ gain) (h : turn ≤ turn') :
    (ctl.mixArcade fwd turn gain).1 ≤ (ctl.mixArcade fwd turn' gain).1 ∧
      (ctl.mixArcade fwd turn' gain).2 ≤ (ctl.mixArcade fwd turn gain).2 := by
  have hshare := mul_le_mul_of_nonneg_right h hgain
  rw [mixArcade_exact, mixArcade_exact]
  exact ⟨clampf_mono (by norm_num) (by linarith), clampf_mono (by norm_num) (by linarith)⟩

/-- A turn that counts is seen on the motors even where a sum saturates. -/
theorem mixArcade_steers (hfwd : |fwd| ≤ 1) (h : 0 < turn * gain) :
    (ctl.mixArcade fwd turn gain).2 < (ctl.mixArcade fwd turn gain).1 := by
  rw [abs_le] at hfwd
  simp only [mixArcade_exact, clampf_exact]
  split_ifs <;> linarith

end Arcade

/-! ### From the stick to the commands -/

/-- What the mixer asks of the two wheels. -/
def stickTarget (cfg : KartConfig ℚ) (x y : ℚ) : ℚ × ℚ :=
  mixerFor cfg.mixType (ctl.deadzone y cfg.thrDeadzone) (ctl.deadzone x cfg.thrDeadzone) cfg

/-- What the ramp makes of it in one tick. -/
def stickCommand (cfg : KartConfig ℚ) (x y : ℚ) (previous : ℚ × ℚ) : ℚ × ℚ :=
  (rampTick cfg (stickTarget cfg x y).1 previous.1, rampTick cfg (stickTarget cfg x y).2 previous.2)

/-- The target of a tick, unless the stick counts as centred. -/
theorem driveTarget_of_moved {cfg : KartConfig ℚ} {p : PadInputs ℚ}
    (h : stickIdle cfg p = false) : driveTarget cfg p = stickTarget cfg p.x p.y := by
  rw [driveTarget, h]
  rfl

theorem rampTick_mono_target {cfg : KartConfig ℚ} {target target' : ℚ} (current : ℚ)
    (h : target ≤ target') : rampTick cfg target current ≤ rampTick cfg target' current := by
  rw [rampTick_exact, rampTick_exact]
  exact asymStep_mono_target h

theorem rampTick_mono_current {cfg : KartConfig ℚ} (target : ℚ) {current current' : ℚ}
    (h : current ≤ current') : rampTick cfg target current ≤ rampTick cfg target current' := by
  rw [rampTick_exact, rampTick_exact]
  exact asymStep_mono_current h

/-- The stick acts in the direction it is pushed. -/
structure ActsAsPushed (cfg : KartConfig ℚ) : Prop where
  moved : ∀ p, stickIdle cfg p = false → driveTarget cfg p = stickTarget cfg p.x p.y
  targets : ∀ x y, |(stickTarget cfg x y).1| ≤ 1 ∧ |(stickTarget cfg x y).2| ≤ 1
  commands : ∀ x y previous, |Prod.fst previous| ≤ 1 → |Prod.snd previous| ≤ 1 →
    |(stickCommand cfg x y previous).1| ≤ 1 ∧ |(stickCommand cfg x y previous).2| ≤ 1
  forward : ∀ x y y' previous, y ≤ y' → stickTarget cfg x y ≤ stickTarget cfg x y' ∧
    stickCommand cfg x y previous ≤ stickCommand cfg x y' previous
  right : ∀ x x' y previous, x ≤ x' →
    ((stickTarget cfg x y).1 ≤ (stickTarget cfg x' y).1 ∧
      (stickTarget cfg x' y).2 ≤ (stickTarget cfg x y).2) ∧
    (stickCommand cfg x y previous).1 ≤ (stickCommand cfg x' y previous).1 ∧
      (stickCommand cfg x' y previous).2 ≤ (stickCommand cfg x y previous).2
  previous : ∀ x y previous previous', previous ≤ previous' →
    stickCommand cfg x y previous ≤ stickCommand cfg x y previous'
  steers : ∀ x y, |x| ≤ 1 → |y| ≤ 1 → 0 < cfg.turnGain → cfg.thrDeadzone < |x| →
    ((stickTarget cfg x y).2 < (stickTarget cfg x y).1 ↔ 0 < x)
  straight : stickTarget cfg 0 1 = (1, 1) ∧ stickTarget cfg 0 (-1) = (-1, -1)

section Target

variable {cfg : KartConfig ℚ} (h : cfg.InRange)

include h

theorem thrDeadzone_mem : 0 ≤ cfg.thrDeadzone ∧ cfg.thrDeadzone < 1 :=
  ⟨h.thrDeadzone.1, lt_of_le_of_lt h.thrDeadzone.2 (by norm_num)⟩

theorem stickTarget_forward (x : ℚ) {y y' : ℚ} (hy : y ≤ y') :
    stickTarget cfg x y ≤ stickTarget cfg x y' := by
  obtain ⟨hdz, hdz'⟩ := thrDeadzone_mem h
  obtain ⟨f, g, hf, -, hmix⟩ := mixerFor_curves cfg.mixType cfg
  rw [stickTarget, stickTarget, hmix, hmix]
  exact mixArcade_mono_fwd (hf.mono (deadzone_mono hdz hdz' hy))

theorem stickTarget_right {x x' : ℚ} (y : ℚ) (hx : x ≤ x') :
    (stickTarget cfg x y).1 ≤ (stickTarget cfg x' y).1 ∧
      (stickTarget cfg x' y).2 ≤ (stickTarget cfg x y).2 := by
  obtain ⟨hdz, hdz'⟩ := thrDeadzone_mem h
  obtain ⟨f, g, -, hg, hmix⟩ := mixerFor_curves cfg.mixType cfg
  rw [stickTarget, stickTarget, hmix, hmix]
  exact mixArcade_mono_turn h.turnGain.1 (hg.mono (deadzone_mono hdz hdz' hx))

theorem stickTarget_steers {x y : ℚ} (hy : |y| ≤ 1) (hgain : 0 < cfg.turnGain) (hx : 0 < x)
    (hout : cfg.thrDeadzone < |x|) : (stickTarget cfg x y).2 < (stickTarget cfg x y).1 := by
  obtain ⟨hdz, hdz'⟩ := thrDeadzone_mem h
  obtain ⟨f, g, hf, hg, hmix⟩ := mixerFor_curves cfg.mixType cfg
  rw [stickTarget, hmix]
  have hturn := hg.pos _ (deadzone_pos hdz' hx hout)
  exact mixArcade_steers (hf.abs_image_le (abs_deadzone_le hdz hdz' hy)) (mul_pos hturn hgain)

theorem stickTarget_neg_turn (x y : ℚ) : stickTarget cfg (-x) y = (stickTarget cfg x y).swap := by
  rw [stickTarget, deadzone_neg (thrDeadzone_mem h).1, mixerFor_neg_turn]
  rfl

theorem stickTarget_straight :
    stickTarget cfg 0 1 = (1, 1) ∧ stickTarget cfg 0 (-1) = (-1, -1) := by
  obtain ⟨hdz, hdz'⟩ := thrDeadzone_mem h
  obtain ⟨f, g, hf, hg, hmix⟩ := mixerFor_curves cfg.mixType cfg
  rw [stickTarget, stickTarget, hmix, hmix, deadzone_neg hdz, deadzone_one hdz',
    deadzone_zero hdz, hg.zero, hf.neg, hf.one]
  simp [mixArcade_exact, clampf_exact]

end Target

/-- **The stick acts in the direction it is pushed**, whatever the settings. -/
theorem stick_acts_as_pushed {cfg : KartConfig ℚ} (h : cfg.InRange) : ActsAsPushed cfg := by
  have htargets : ∀ x y, |(stickTarget cfg x y).1| ≤ 1 ∧ |(stickTarget cfg x y).2| ≤ 1 :=
    fun x y => abs_mixerFor_le _ _ _ _
  constructor
  · exact fun p => driveTarget_of_moved
  · exact htargets
  · intro x y previous hl hr
    obtain ⟨htl, htr⟩ := htargets x y
    exact ⟨abs_rampTick_le htl hl, abs_rampTick_le htr hr⟩
  · intro x y y' previous hy
    have htarget := stickTarget_forward h x hy
    exact ⟨htarget, rampTick_mono_target _ htarget.1, rampTick_mono_target _ htarget.2⟩
  · intro x x' y previous hx
    have htarget := stickTarget_right h y hx
    exact ⟨htarget, rampTick_mono_target _ htarget.1, rampTick_mono_target _ htarget.2⟩
  · intro x y previous previous' hprevious
    exact ⟨rampTick_mono_current _ hprevious.1, rampTick_mono_current _ hprevious.2⟩
  · intro x y _ hy hgain hout
    rcases lt_trichotomy x 0 with hneg | hzero | hpos
    · have hmirror := stickTarget_steers h hy hgain (neg_pos.mpr hneg) (by rwa [abs_neg])
      rw [stickTarget_neg_turn h] at hmirror
      exact iff_of_false (lt_asymm hmirror) (lt_asymm hneg)
    · rw [hzero, abs_zero] at hout
      exact absurd hout (not_lt.mpr (thrDeadzone_mem h).1)
    · exact iff_of_true (stickTarget_steers h hy hgain hpos hout) hpos
  · exact stickTarget_straight h

theorem stick_acts_as_pushed_exactCfg : ActsAsPushed exactCfg :=
  stick_acts_as_pushed exactCfg_inRange

/-! ### Splitting a tick -/

/-- **When two ticks are the one tick of their sum**: unless the fall of a reversal arrives
in the second one and the target is out of reach of what this one grows. -/
theorem ramp_split_iff (target current : ℚ) {up dn dt₁ dt₂ : ℚ} (hup : 0 < up) (hdn : 0 < dn)
    (hdt₁ : 0 < dt₁) (hdt₂ : 0 < dt₂) :
    ctl.ramp target (ctl.ramp target current up dn dt₁) up dn dt₂ =
        ctl.ramp target current up dn (dt₁ + dt₂) ↔
      ¬ (target * current < 0 ∧ dn * dt₁ < |current| ∧ |current| ≤ dn * (dt₁ + dt₂) ∧
        up * dt₂ < |target|) := by
  rw [ramp_exact hdt₁, ramp_exact hdt₂, ramp_exact (add_pos hdt₁ hdt₂), mul_add, mul_add]
  exact asymStep_add_iff (mul_pos hup hdt₁) (mul_pos hup hdt₂) (mul_pos hdn hdt₁)
    (mul_pos hdn hdt₂)

/-- From 0.1 toward -1 at 2 and 4 per second: 0.02 s and 0.03 s fall and then grow for
0.03 s, and 0.05 s at once grow for all of it. -/
theorem reversal_split_differs :
    ctl.ramp (-1) (ctl.ramp (-1) (1 / 10) 2 4 (1 / 50)) 2 4 (3 / 100) = (-3 / 50 : ℚ) ∧
      ctl.ramp (-1) (1 / 10) 2 4 (1 / 50 + 3 / 100) = (-1 / 10 : ℚ) ∧
      ctl.ramp (-1) (ctl.ramp (-1) (1 / 10) 2 4 (1 / 50)) 2 4 (3 / 100) ≠
        ctl.ramp (-1) (1 / 10 : ℚ) 2 4 (1 / 50 + 3 / 100) := by
  decide +kernel

theorem ramp_split_iff_short_fall :
    ctl.ramp (-1) (ctl.ramp (-1) (1 / 20 : ℚ) 2 4 (1 / 50)) 2 4 (3 / 100) =
      ctl.ramp (-1) (1 / 20) 2 4 (1 / 50 + 3 / 100) := by
  refine (ramp_split_iff (-1) (1 / 20) (by norm_num) (by norm_num) (by norm_num)
    (by norm_num)).mpr ?_
  rintro ⟨-, hlong, -⟩
  rw [abs_of_pos (by norm_num)] at hlong
  norm_num at hlong

end KartFirmware

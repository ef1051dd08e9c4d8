import KartFirmware.Arming
import KartFirmware.ExactControl

/-!
# The remembered commands and the ramp limits

Between two ticks the controller remembers one command for each wheel: the one
it has just put out, or 0 if it has just braked (`loopAt_succ_lastL`).  A tick
that does not brake ramps from it (`tickAt_outL`).  In exact arithmetic this
bounds how much the real duty of a wheel can change from one tick to the next
(`ramp_limits`), and how large a command can get (`abs_command_le`).
-/

set_option linter.unusedSectionVars false

namespace KartFirmware

open RateLimit

/-! ### The remembered commands -/

section Memory

variable {F : Type} [CFloat F] (cfg₀ : KartConfig F) (w : Nat → TickIn F) (n : Nat)

theorem tickAt_dynBrake :
    (tickAt cfg₀ w n).out.dynBrake = decide ((driveAt cfg₀ w n).2.mode = .dynamic) := rfl

theorem driveAt_of_driving (h : (tickAt cfg₀ w n).out.dynBrake = false) :
    (driveAt cfg₀ w n).2.outL =
        rampTick (w n).cfg (driveTarget (w n).cfg (w n).pad).1 (loopAt cfg₀ w n).lastL ∧
      (driveAt cfg₀ w n).2.outR =
        rampTick (w n).cfg (driveTarget (w n).cfg (w n).pad).2 (loopAt cfg₀ w n).lastR ∧
      (driveAt cfg₀ w n).1.lastL = (driveAt cfg₀ w n).2.outL ∧
      (driveAt cfg₀ w n).1.lastR = (driveAt cfg₀ w n).2.outR := by
  obtain ⟨harmed, hdrive⟩ := tickAt_dynBrake_false h
  have hl : (armAt cfg₀ w n).lastL = (loopAt cfg₀ w n).lastL := arm_lastL _ _ _
  have hr : (armAt cfg₀ w n).lastR = (loopAt cfg₀ w n).lastR := arm_lastR _ _ _
  have hheld := drive_held (armAt cfg₀ w n) (w n).cfg (w n).inputs harmed hdrive rfl rfl
  rw [hl, hr] at hheld
  rw [driveAt, hheld]
  exact ⟨rfl, rfl, rfl, rfl⟩

theorem loopAt_succ_lastL :
    (loopAt cfg₀ w (n + 1)).lastL =
      if (tickAt cfg₀ w n).out.dynBrake then 0 else (tickAt cfg₀ w n).tel.outL := by
  rw [loopAt_succ, inactivity_lastL, tickAt_tel]
  cases hbrake : (tickAt cfg₀ w n).out.dynBrake with
  | true =>
    rw [tickAt_dynBrake] at hbrake
    rw [of_decide_eq_true hbrake]
    rfl
  | false =>
    have hkept := (driveAt_of_driving cfg₀ w n hbrake).2.2.1
    rw [tickAt_dynBrake] at hbrake
    rw [LoopState.brakeReset, if_neg (of_decide_eq_false hbrake)]
    exact hkept

theorem loopAt_succ_lastR :
    (loopAt cfg₀ w (n + 1)).lastR =
      if (tickAt cfg₀ w n).out.dynBrake then 0 else (tickAt cfg₀ w n).tel.outR := by
  rw [loopAt_succ, inactivity_lastR, tickAt_tel]
  cases hbrake : (tickAt cfg₀ w n).out.dynBrake with
  | true =>
    rw [tickAt_dynBrake] at hbrake
    rw [of_decide_eq_true hbrake]
    rfl
  | false =>
    have hkept := (driveAt_of_driving cfg₀ w n hbrake).2.2.2
    rw [tickAt_dynBrake] at hbrake
    rw [LoopState.brakeReset, if_neg (of_decide_eq_false hbrake)]
    exact hkept

variable {cfg₀ w n}

theorem tickAt_outL (h : (tickAt cfg₀ w n).out.dynBrake = false) :
    (tickAt cfg₀ w n).tel.outL =
      rampTick (w n).cfg (driveTarget (w n).cfg (w n).pad).1 (loopAt cfg₀ w n).lastL :=
  (driveAt_of_driving cfg₀ w n h).1

theorem tickAt_outR (h : (tickAt cfg₀ w n).out.dynBrake = false) :
    (tickAt cfg₀ w n).tel.outR =
      rampTick (w n).cfg (driveTarget (w n).cfg (w n).pad).2 (loopAt cfg₀ w n).lastR :=
  (driveAt_of_driving cfg₀ w n h).2.1

end Memory

/-! ### Bounded commands -/

section Bounds

variable (cfg₀ : KartConfig ℚ) (w : Nat → TickIn ℚ)

/-- The mixers clamp, and the ramp never leaves the band of target and memory. -/
theorem abs_memory_le (n : Nat) :
    |(loopAt cfg₀ w n).lastL| ≤ 1 ∧ |(loopAt cfg₀ w n).lastR| ≤ 1 := by
  have hzero : |(0 : ℚ)| ≤ 1 := by norm_num
  induction n with
  | zero => exact ⟨hzero, hzero⟩
  | succ n ih =>
    rw [loopAt_succ_lastL, loopAt_succ_lastR]
    cases hbrake : (tickAt cfg₀ w n).out.dynBrake with
    | true => exact ⟨hzero, hzero⟩
    | false =>
      have htarget := abs_driveTarget_le (w n).cfg (w n).pad
      rw [tickAt_outL hbrake, tickAt_outR hbrake]
      exact ⟨abs_rampTick_le htarget.1 ih.1, abs_rampTick_le htarget.2 ih.2⟩

/-- No logical command is larger than 1, even with the axes outside `[-1, 1]`. -/
theorem abs_command_le (n : Nat) :
    |(tickAt cfg₀ w n).tel.outL| ≤ 1 ∧ |(tickAt cfg₀ w n).tel.outR| ≤ 1 := by
  have hzero : |(0 : ℚ)| ≤ 1 := by norm_num
  have hmem := abs_memory_le cfg₀ w n
  have hl : (armAt cfg₀ w n).lastL = (loopAt cfg₀ w n).lastL := arm_lastL _ _ _
  have hr : (armAt cfg₀ w n).lastR = (loopAt cfg₀ w n).lastR := arm_lastR _ _ _
  have htarget := abs_driveTarget_le (w n).cfg (w n).pad
  rw [← hl, ← hr] at hmem
  rw [tickAt_tel, driveAt]
  cases harmed : (armAt cfg₀ w n).armed with
  | false =>
    rw [drive_disarmed _ _ _ harmed]
    exact ⟨hzero, hzero⟩
  | true =>
    cases hdrive : (w n).inputs.pad.drive with
    | false =>
      rw [drive_released _ _ _ harmed hdrive]
      exact ⟨hzero, hzero⟩
    | true =>
      rw [drive_held _ _ _ harmed hdrive rfl rfl]
      exact ⟨abs_rampTick_le htarget.1 hmem.1, abs_rampTick_le htarget.2 hmem.2⟩

end Bounds

/-! ### Real duty -/

/-- One step of a wheel's real duty from `P` to `Q` within the configured rates. -/
structure RampLimited (cfg : KartConfig ℚ) (P Q : ℚ) : Prop where
  grow : 0 < cfg.accelPctS → 0 ≤ P * Q → |Q| - |P| ≤ cfg.accelPctS / 100 * hw.CTRL_DT_S
  shrink : 0 < cfg.decelPctS → 0 ≤ P * Q → |P| - |Q| ≤ cfg.decelPctS / 100 * hw.CTRL_DT_S
  reverse : P * Q < 0 →
    (0 < cfg.decelPctS → |P| ≤ cfg.decelPctS / 100 * hw.CTRL_DT_S) ∧
      (0 < cfg.accelPctS → |Q| ≤ cfg.accelPctS / 100 * hw.CTRL_DT_S)

/-- The real duty of a wheel after a tick: its logical command times the duty
cap, and 0 after a tick that braked. -/
def realDuty (cfg : KartConfig ℚ) (t : TickOut ℚ) (command : CtrlTelemetry ℚ → ℚ) : ℚ :=
  if t.out.dynBrake then 0 else cfg.dutyCapFrac * command t.tel

theorem capFrac_of_inRange {cfg : KartConfig ℚ} (h : cfg.InRangeAnyMix) :
    capFrac cfg = cfg.dutyCapFrac := by
  have hlow : (0.05 : ℚ) ≤ cfg.dutyCapFrac := h.dutyCapFrac.1
  exact clampf_of_mem (by linarith) h.dutyCapFrac.2

/-- The step of the ramp in real duty is the configured rate over one tick: the
division by the cap in `commandRate` cancels. -/
theorem dutyCapFrac_mul_tickStep {cfg : KartConfig ℚ} (h : cfg.InRangeAnyMix) (pctS : Int) :
    cfg.dutyCapFrac * tickStep cfg pctS = pctS / 100 * hw.CTRL_DT_S := by
  have hlow : (0.05 : ℚ) ≤ cfg.dutyCapFrac := h.dutyCapFrac.1
  have hpos : cfg.dutyCapFrac ≠ 0 := by linarith
  rw [tickStep, commandRate_exact, capFrac_of_inRange h, max_eq_left hlow]
  field_simp

theorem rampLimited_of_rampTick {cfg : KartConfig ℚ} (h : cfg.InRangeAnyMix) (t c : ℚ) :
    RampLimited cfg (cfg.dutyCapFrac * c) (cfg.dutyCapFrac * rampTick cfg t c) := by
  have hlow : (0.05 : ℚ) ≤ cfg.dutyCapFrac := h.dutyCapFrac.1
  have hd : 0 < cfg.dutyCapFrac := by linarith
  have hlim := (asymStep_limited t c (tickStep cfg cfg.accelPctS)
    (tickStep cfg cfg.decelPctS)).scale hd
  rw [← rampTick_exact, dutyCapFrac_mul_tickStep h, dutyCapFrac_mul_tickStep h] at hlim
  have hstep : ∀ {pctS : Int}, 0 < pctS → 0 < (pctS : ℚ) / 100 * hw.CTRL_DT_S := by
    intro pctS hpos
    have hcast : (0 : ℚ) < pctS := Int.cast_pos.mpr hpos
    exact mul_pos (by linarith) CTRL_DT_S_pos
  exact ⟨fun hpos => hlim.grow (hstep hpos), fun hpos => hlim.shrink (hstep hpos), fun hside =>
    ⟨fun hpos => (hlim.reverse hside).1 (hstep hpos),
      fun hpos => (hlim.reverse hside).2 (hstep hpos)⟩⟩

/-- **Ramp limits over whole runs.**  Under a constant configuration the real
duty of each wheel keeps the configured rates from any tick to a next tick that
does not brake, and a tick that brakes leaves no command behind. -/
theorem ramp_limits {cfg₀ cfg : KartConfig ℚ} {w : Nat → TickIn ℚ} (hcfg : cfg.InRangeAnyMix)
    (hconst : ∀ n, (w n).cfg = cfg) (n : Nat) :
    ((tickAt cfg₀ w (n + 1)).out.dynBrake = false →
      RampLimited cfg (realDuty cfg (tickAt cfg₀ w n) CtrlTelemetry.outL)
          (realDuty cfg (tickAt cfg₀ w (n + 1)) CtrlTelemetry.outL) ∧
        RampLimited cfg (realDuty cfg (tickAt cfg₀ w n) CtrlTelemetry.outR)
          (realDuty cfg (tickAt cfg₀ w (n + 1)) CtrlTelemetry.outR)) ∧
      ((tickAt cfg₀ w n).out.dynBrake = true →
        (loopAt cfg₀ w (n + 1)).lastL = 0 ∧ (loopAt cfg₀ w (n + 1)).lastR = 0) := by
  have hmemL : realDuty cfg (tickAt cfg₀ w n) CtrlTelemetry.outL =
      cfg.dutyCapFrac * (loopAt cfg₀ w (n + 1)).lastL := by
    rw [realDuty, loopAt_succ_lastL]
    split_ifs
    · exact (mul_zero _).symm
    · rfl
  have hmemR : realDuty cfg (tickAt cfg₀ w n) CtrlTelemetry.outR =
      cfg.dutyCapFrac * (loopAt cfg₀ w (n + 1)).lastR := by
    rw [realDuty, loopAt_succ_lastR]
    split_ifs
    · exact (mul_zero _).symm
    · rfl
  constructor
  · intro hdrive
    rw [hmemL, hmemR, realDuty, realDuty, if_neg (by simp [hdrive]), if_neg (by simp [hdrive]),
      tickAt_outL hdrive, tickAt_outR hdrive, hconst]
    exact ⟨rampLimited_of_rampTick hcfg _ _, rampLimited_of_rampTick hcfg _ _⟩
  · intro hbrake
    rw [loopAt_succ_lastL, loopAt_succ_lastR, if_pos hbrake, if_pos hbrake]
    exact ⟨rfl, rfl⟩

theorem ramp_limits_exactRun :
    RampLimited { exactCfg with mixType := 7 }
      (realDuty { exactCfg with mixType := 7 }
        (tickAt exactCfg (exactRun { exactCfg with mixType := 7 }) 2) CtrlTelemetry.outL)
      (realDuty { exactCfg with mixType := 7 }
        (tickAt exactCfg (exactRun { exactCfg with mixType := 7 }) 3) CtrlTelemetry.outL) :=
  ((ramp_limits (w := exactRun { exactCfg with mixType := 7 }) (exactCfg_inRangeAnyMix 7)
    (fun _ => rfl) 2).1 (by decide +kernel)).1

end KartFirmware

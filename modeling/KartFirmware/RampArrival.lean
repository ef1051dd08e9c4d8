import KartFirmware.Hardware
import KartFirmware.RateArrival
import Mathlib.Data.Rat.Floor

/-!
# The ramps arrive

With A held, START released, nothing in the way and a constant configuration, each
tick puts out one limiter step from the command before it, or 0 once it is disarmed
(`stepped_idle`, `stepped_of_drives`).  In exact arithmetic a constant stick is
therefore reached in bounded time, and a centred one ends in the brake: no later than
the run-down of the larger command (`ramps_settle`).
-/

set_option linter.unusedSectionVars false

namespace KartFirmware

open RateLimit

/-! ### The two wheels -/

section Wheels

variable {F : Type}

def LoopState.last (s : LoopState F) : Wheel → F
  | .left => s.lastL
  | .right => s.lastR

def Wheel.of {α : Type} : Wheel → α × α → α
  | .left => Prod.fst
  | .right => Prod.snd

end Wheels

section Ticks

variable {F : Type} [CFloat F] (cfg₀ : KartConfig F) (w : Nat → TickIn F) (n : Nat)

theorem loopAt_succ_last (x : Wheel) :
    (loopAt cfg₀ w (n + 1)).last x =
      if (tickAt cfg₀ w n).out.dynBrake then 0 else (tickAt cfg₀ w n).tel.command x := by
  cases x with
  | left => exact loopAt_succ_lastL cfg₀ w n
  | right => exact loopAt_succ_lastR cfg₀ w n

/-- A held, START released, nothing in the way, and the configuration in force. -/
structure Held (cfg : KartConfig F) (e : TickIn F) : Prop where
  cfg_eq : e.cfg = cfg
  drive : e.pad.drive = true
  released : e.pad.start = false
  free : stopCause e.inputs = .none

variable {cfg₀ w n} {cfg : KartConfig F}

theorem armAt_armed_of_held (h : Held cfg (w n)) :
    (armAt cfg₀ w n).armed = (loopAt cfg₀ w n).armed := by
  have hpress : (loopAt cfg₀ w n).pressHandled (w n).cfg (w n).inputs = false := by
    have hstart : (w n).inputs.pad.start = false := h.released
    simp [LoopState.pressHandled, hstart]
  rw [armAt, arm_armed, hpress, h.free]
  simp

/-- A tick with A held ramps both commands, and brakes only at rest. -/
theorem tickAt_of_armed (h : Held cfg (w n)) (harmed : (loopAt cfg₀ w n).armed = true) :
    (∀ x : Wheel, (tickAt cfg₀ w n).tel.command x =
        rampTick cfg (x.of (driveTarget cfg (w n).pad)) ((loopAt cfg₀ w n).last x)) ∧
      (tickAt cfg₀ w n).tel.brakeMode =
        if !stickIdle cfg (w n).pad then .none
        else if rolling (tickAt cfg₀ w n).tel.outL (tickAt cfg₀ w n).tel.outR then .coast
        else .dynamic := by
  have harm : (armAt cfg₀ w n).armed = true := (armAt_armed_of_held h).trans harmed
  have hl : (armAt cfg₀ w n).lastL = (loopAt cfg₀ w n).lastL := arm_lastL _ _ _
  have hr : (armAt cfg₀ w n).lastR = (loopAt cfg₀ w n).lastR := arm_lastR _ _ _
  have hheld := drive_held (armAt cfg₀ w n) (w n).cfg (w n).inputs harm h.drive rfl rfl
  rw [hl, hr, h.cfg_eq] at hheld
  rw [tickAt_tel, driveAt, h.cfg_eq, hheld]
  constructor
  · intro x
    cases x with
    | left => rfl
    | right => rfl
  · rfl

theorem tickAt_of_disarmed (h : Held cfg (w n)) (harmed : (loopAt cfg₀ w n).armed = false) :
    (∀ x : Wheel, (tickAt cfg₀ w n).tel.command x = 0) ∧
      (tickAt cfg₀ w n).tel.brakeMode = .dynamic := by
  have harm : (armAt cfg₀ w n).armed = false := (armAt_armed_of_held h).trans harmed
  rw [tickAt_tel, driveAt, drive_disarmed _ _ _ harm]
  constructor
  · intro x
    cases x with
    | left => rfl
    | right => rfl
  · rfl

theorem dynBrake_iff :
    (tickAt cfg₀ w n).out.dynBrake = true ↔ (tickAt cfg₀ w n).tel.brakeMode = .dynamic := by
  rw [tickAt_dynBrake, decide_eq_true_eq, tickAt_tel]

/-- A stick that is not centred is an activity, so the kart stays armed. -/
theorem armed_succ_of_drives (h : Held cfg (w n)) (hcfg : 0 ≤ cfg.disarmS)
    (hdrives : stickIdle cfg (w n).pad = false) (harmed : (loopAt cfg₀ w n).armed = true) :
    (loopAt cfg₀ w (n + 1)).armed = true := by
  have harm : (armAt cfg₀ w n).armed = true := (armAt_armed_of_held h).trans harmed
  have hnow : (loopAt cfg₀ w (n + 1)).lastActUs = (w n).nowUs := by
    rw [loopAt_succ_lastActUs, if_pos ⟨harm, h.drive, by rw [h.cfg_eq, hdrives]⟩]
  rw [loopAt_succ_armed, harm, hnow, h.cfg_eq]
  simp only [Bool.true_and, Bool.not_eq_true', decide_eq_false_iff_not]
  omega

end Ticks

/-! ### The commands from an armed state on -/

section Commands

variable (cfg₀ : KartConfig ℚ) (w : Nat → TickIn ℚ) (n : Nat)

/-- The command of a wheel before tick `n`, and after each tick from there on. -/
def commandFrom (x : Wheel) : Nat → ℚ
  | 0 => (loopAt cfg₀ w n).last x
  | k + 1 => (tickAt cfg₀ w (n + k)).tel.command x

/-- What is remembered is the last command, or 0. -/
theorem last_eq_or_zero (x : Wheel) (k : Nat) :
    (loopAt cfg₀ w (n + k)).last x = commandFrom cfg₀ w n x k ∨
      (loopAt cfg₀ w (n + k)).last x = 0 := by
  cases k with
  | zero => exact Or.inl rfl
  | succ k =>
    have hmem := loopAt_succ_last cfg₀ w (n + k) x
    cases hbrake : (tickAt cfg₀ w (n + k)).out.dynBrake with
    | true =>
      rw [hbrake] at hmem
      exact Or.inr hmem
    | false =>
      rw [hbrake] at hmem
      exact Or.inl hmem

theorem driveTarget_idle {cfg : KartConfig ℚ} {pad : PadInputs ℚ} (h : stickIdle cfg pad = true)
    (x : Wheel) : x.of (driveTarget cfg pad) = 0 := by
  rw [driveTarget, if_pos h]
  cases x with
  | left => rfl
  | right => rfl

variable {w n} {cfg : KartConfig ℚ} (hheld : ∀ k, Held cfg (w (n + k)))

include hheld

theorem stepped_idle (x : Wheel) {k : Nat} (hidle : stickIdle cfg (w (n + k)).pad = true) :
    Stepped (tickStep cfg cfg.accelPctS) (tickStep cfg cfg.decelPctS) 0
      (commandFrom cfg₀ w n x) k := by
  cases harmed : (loopAt cfg₀ w (n + k)).armed with
  | false =>
    right
    exact (tickAt_of_disarmed (hheld k) harmed).1 x
  | true =>
    have hcommand := (tickAt_of_armed (hheld k) harmed).1 x
    rw [driveTarget_idle hidle, rampTick_exact] at hcommand
    rcases last_eq_or_zero cfg₀ w n x k with hlast | hlast
    · left
      rw [← hlast]
      exact hcommand
    · right
      refine hcommand.trans ?_
      rw [hlast, asymStep_self]

theorem armed_of_drives (hcfg : 0 ≤ cfg.disarmS) (harmed : (loopAt cfg₀ w n).armed = true)
    (hdrives : ∀ k, stickIdle cfg (w (n + k)).pad = false) (k : Nat) :
    (loopAt cfg₀ w (n + k)).armed = true := by
  induction k with
  | zero => exact harmed
  | succ k ih => exact armed_succ_of_drives (hheld k) hcfg (hdrives k) ih

theorem stepped_of_drives (x : Wheel) {k : Nat} (harmed : ∀ k, (loopAt cfg₀ w (n + k)).armed = true)
    (hdrives : ∀ k, stickIdle cfg (w (n + k)).pad = false) :
    Stepped (tickStep cfg cfg.accelPctS) (tickStep cfg cfg.decelPctS)
      (x.of (driveTarget cfg (w (n + k)).pad)) (commandFrom cfg₀ w n x) k := by
  have hcommand := (tickAt_of_armed (hheld k) (harmed k)).1 x
  have hlast : (loopAt cfg₀ w (n + k)).last x = commandFrom cfg₀ w n x k := by
    cases k with
    | zero => rfl
    | succ k =>
      have hmode := (tickAt_of_armed (hheld k) (harmed k)).2
      rw [hdrives k] at hmode
      have hbrake : (tickAt cfg₀ w (n + k)).out.dynBrake ≠ true := by
        rw [ne_eq, dynBrake_iff, hmode]
        simp
      have hmem := loopAt_succ_last cfg₀ w (n + k) x
      rw [if_neg hbrake] at hmem
      exact hmem
  left
  rw [hlast, rampTick_exact] at hcommand
  exact hcommand

/-- Two commands of zero, or a disarmed kart, are the brake. -/
theorem brakes_of_rest {k : Nat} (hidle : stickIdle cfg (w (n + k)).pad = true)
    (hrest : ∀ x, commandFrom cfg₀ w n x (k + 1) = 0) :
    (tickAt cfg₀ w (n + k)).tel.brakeMode = .dynamic := by
  cases harmed : (loopAt cfg₀ w (n + k)).armed with
  | false => exact (tickAt_of_disarmed (hheld k) harmed).2
  | true =>
    have hmode := (tickAt_of_armed (hheld k) harmed).2
    have hl : (tickAt cfg₀ w (n + k)).tel.outL = 0 := hrest .left
    have hr : (tickAt cfg₀ w (n + k)).tel.outR = 0 := hrest .right
    have hstill : rolling (0 : ℚ) 0 = false := by decide +kernel
    rw [hidle, hl, hr, hstill] at hmode
    exact hmode

/-- Braking forgets the commands, so a centred stick stays in the brake. -/
theorem brakes_succ {k : Nat} (hidle : stickIdle cfg (w (n + (k + 1))).pad = true)
    (hbrake : (tickAt cfg₀ w (n + k)).out.dynBrake = true) :
    (tickAt cfg₀ w (n + (k + 1))).tel.brakeMode = .dynamic := by
  refine brakes_of_rest cfg₀ hheld hidle fun x => ?_
  cases harmed : (loopAt cfg₀ w (n + (k + 1))).armed with
  | false => exact (tickAt_of_disarmed (hheld (k + 1)) harmed).1 x
  | true =>
    have hlast := loopAt_succ_last cfg₀ w (n + k) x
    have hcommand := (tickAt_of_armed (hheld (k + 1)) harmed).1 x
    rw [if_pos hbrake] at hlast
    rw [driveTarget_idle hidle, rampTick_exact, ← Nat.add_assoc, hlast, asymStep_self] at hcommand
    exact hcommand

end Commands

/-! ### Arrival -/

def Brakes (t : TickOut ℚ) : Prop := t.out.dynBrake = true ∧ t.tel.brakeMode = .dynamic

/-- The freewheel `K + 1` ticks after it began: both commands have fallen further on their
side, and from the end of the run-down on, or from the first brake, or once disarmed, the
kart brakes. -/
structure Freewheels (cfg₀ cfg : KartConfig ℚ) (w : Nat → TickIn ℚ) (n K : Nat) : Prop where
  falls : ∀ x, |commandFrom cfg₀ w n x (K + 1)| ≤ |commandFrom cfg₀ w n x K| ∧
    0 ≤ commandFrom cfg₀ w n x 0 * commandFrom cfg₀ w n x (K + 1)
  ends : moveTicks (max |commandFrom cfg₀ w n .left 0| |commandFrom cfg₀ w n .right 0|)
    (tickStep cfg cfg.decelPctS) ≤ K → Brakes (tickAt cfg₀ w (n + K))
  stays : ∀ k ≤ K, Brakes (tickAt cfg₀ w (n + k)) → Brakes (tickAt cfg₀ w (n + K))
  disarmed : (loopAt cfg₀ w (n + K)).armed = false → Brakes (tickAt cfg₀ w (n + K))

theorem brakes_iff {cfg₀ : KartConfig ℚ} {w : Nat → TickIn ℚ} {n : Nat} :
    Brakes (tickAt cfg₀ w n) ↔ (tickAt cfg₀ w n).tel.brakeMode = .dynamic := by
  rw [Brakes, dynBrake_iff, and_self_iff]

theorem freewheels {cfg₀ cfg : KartConfig ℚ} {w : Nat → TickIn ℚ} {n K : Nat}
    (hheld : ∀ k, Held cfg (w (n + k)))
    (hidle : ∀ k ≤ K, stickIdle cfg (w (n + k)).pad = true) : Freewheels cfg₀ cfg w n K := by
  have hsteps : ∀ x, ∀ k < K + 1, Stepped (tickStep cfg cfg.accelPctS)
      (tickStep cfg cfg.decelPctS) 0 (commandFrom cfg₀ w n x) k :=
    fun x k hk => stepped_idle cfg₀ hheld x (hidle k (Nat.le_of_lt_succ hk))
  constructor
  · intro x
    refine ⟨?_, same_side_of_stepped (hsteps x)⟩
    rcases hsteps x K (Nat.lt_succ_self K) with hstep | hstep
    · rw [hstep]
      exact abs_asymStep_zero_le _ _ _
    · rw [hstep, abs_zero]
      exact abs_nonneg _
  · intro hticks
    rw [brakes_iff]
    refine brakes_of_rest cfg₀ hheld (hidle K (le_refl K)) fun x => ?_
    refine arrives (hsteps x) (inReach_zero_moveTicks ?_ (Nat.succ_le_succ hticks))
    cases x with
    | left => exact le_max_left _ _
    | right => exact le_max_right _ _
  · intro k hk hbrakes
    induction K with
    | zero =>
      obtain rfl : k = 0 := by omega
      exact hbrakes
    | succ K ih =>
      rcases Nat.le_succ_iff.mp hk with hle | rfl
      · have hprev := ih (fun j hj => hidle j (by omega)) (fun x j hj => hsteps x j (by omega)) hle
        rw [brakes_iff]
        exact brakes_succ cfg₀ hheld (hidle (K + 1) (le_refl _)) hprev.1
      · exact hbrakes
  · intro harmed
    rw [brakes_iff]
    exact (tickAt_of_disarmed (hheld K) harmed).2

/-- **The ramps reach the target and the freewheel ends in the brake.**  From any reachable
armed state on, with A held, START released and nothing in the way: a constant stick is
settled at by both wheels, and a stick that stays centred ends in the brake. -/
theorem ramps_settle {cfg₀ cfg : KartConfig ℚ} {w : Nat → TickIn ℚ} {n : Nat}
    (hcfg : cfg.InRange) (harmed : (loopAt cfg₀ w n).armed = true)
    (hheld : ∀ k, Held cfg (w (n + k))) :
    ((∀ k, (w (n + k)).pad.x = (w n).pad.x ∧ (w (n + k)).pad.y = (w n).pad.y) →
        ∀ x : Wheel, Settles (tickStep cfg cfg.accelPctS) (tickStep cfg cfg.decelPctS)
          (x.of (driveTarget cfg (w n).pad)) (commandFrom cfg₀ w n x)) ∧
      ∀ K, (∀ k ≤ K, stickIdle cfg (w (n + k)).pad = true) → Freewheels cfg₀ cfg w n K := by
  refine ⟨fun hstick x => ?_, fun K hidle => freewheels hheld hidle⟩
  have hsame : ∀ k, stickIdle cfg (w (n + k)).pad = stickIdle cfg (w n).pad ∧
      driveTarget cfg (w (n + k)).pad = driveTarget cfg (w n).pad := by
    intro k
    obtain ⟨hx, hy⟩ := hstick k
    have hforward : forward cfg (w (n + k)).pad = forward cfg (w n).pad := by
      rw [forward, forward, hy]
    have hturning : turning cfg (w (n + k)).pad = turning cfg (w n).pad := by
      rw [turning, turning, hx]
    have hidle : stickIdle cfg (w (n + k)).pad = stickIdle cfg (w n).pad := by
      rw [stickIdle, stickIdle, hforward, hturning]
    rw [driveTarget, driveTarget, hidle, hforward, hturning]
    exact ⟨rfl, rfl⟩
  refine settles_of_stepped fun k => ?_
  cases hidle : stickIdle cfg (w n).pad with
  | true =>
    rw [driveTarget_idle hidle]
    exact stepped_idle cfg₀ hheld x ((hsame k).1.trans hidle)
  | false =>
    have hdrives : ∀ k, stickIdle cfg (w (n + k)).pad = false :=
      fun k => (hsame k).1.trans hidle
    have hdisarm : 0 ≤ cfg.disarmS := (by norm_num : (0 : Int) ≤ 5).trans hcfg.disarmS.1
    have hstays := armed_of_drives cfg₀ hheld hdisarm harmed hdrives
    have hstep := stepped_of_drives cfg₀ hheld x (k := k) hstays hdrives
    rw [(hsame k).2] at hstep
    exact hstep

theorem exactRun_held (k : Nat) : Held exactCfg (exactRun exactCfg (2 + k)) := by
  have hstart : ¬ 2 + k ≤ 1 := by omega
  have hdrive : 1 < 2 + k := by omega
  constructor
  · rfl
  · exact decide_eq_true hdrive
  · exact decide_eq_false hstart
  · have hstale : padStale (exactRun exactCfg (2 + k)).inputs = false := by
      simp [padStale, exactRun, TickIn.inputs, hw.PAD_HB_TIMEOUT_US]
    rw [stopCause, hstale]
    rfl

theorem ramps_settle_exactRun :
    (loopAt exactCfg (exactRun exactCfg) 2).armed = true ∧
      Settles (tickStep exactCfg exactCfg.accelPctS) (tickStep exactCfg exactCfg.decelPctS)
        (Wheel.left.of (driveTarget exactCfg (exactRun exactCfg 2).pad))
        (commandFrom exactCfg (exactRun exactCfg) 2 .left) := by
  have harmed : (loopAt exactCfg (exactRun exactCfg) 2).armed = true := by decide +kernel
  refine ⟨harmed, (ramps_settle exactCfg_inRange harmed exactRun_held).1 (fun k => ?_) .left⟩
  have hstart : ¬ 2 + k ≤ 1 := by omega
  simp [exactRun, hstart]

end KartFirmware

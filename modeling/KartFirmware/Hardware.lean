import KartFirmware.CachedPort
import KartFirmware.RampLimits

/-!
# The motor outputs

`hardware.cpp` as far as the motors go: the two driver channels with their duty
and DIR ports behind the write caches `m_duty_last` and `m_dir_last`, and
`EspController::applyOutputs`, the callback of the controller.  The LEDC clock
guard, which repairs a register, and the status LED are left out.

`boardMachine` is the controller with the board attached to its outputs.  The
caches are coherent from `board::init` on, so after every tick the pins carry
what the outputs of that tick ask for (`pins_after_tick`).
-/

set_option linter.unusedSectionVars false

namespace KartFirmware

/-! ### The board -/

/-- The LEDC channel and the DIR pin of one driver. -/
inductive Channel where
  | left
  | right
deriving DecidableEq, Repr

inductive Dir where
  | forward
  | reverse
deriving DecidableEq, Repr

def Dir.level : Dir → Int
  | .forward => 1
  | .reverse => 0

/-- Duty and DIR level of each channel, behind their caches. -/
structure Board where
  duty : Channel → CachedPort Nat
  dir : Channel → CachedPort Int

namespace Board

def setDuty (b : Board) (ch : Channel) (duty : Nat) : Board :=
  { b with duty := Function.update b.duty ch ((b.duty ch).write duty) }

def dirPin (b : Board) (ch : Channel) (d : Dir) : Board :=
  { b with dir := Function.update b.dir ch ((b.dir ch).write d.level) }

@[simp] theorem setDuty_duty (b : Board) (ch c : Channel) (v : Nat) :
    (b.setDuty ch v).duty c = if c = ch then (b.duty ch).write v else b.duty c :=
  Function.update_apply ..

@[simp] theorem setDuty_dir (b : Board) (ch : Channel) (v : Nat) : (b.setDuty ch v).dir = b.dir :=
  rfl

@[simp] theorem dirPin_duty (b : Board) (ch : Channel) (d : Dir) : (b.dirPin ch d).duty = b.duty :=
  rfl

@[simp] theorem dirPin_dir (b : Board) (ch c : Channel) (d : Dir) :
    (b.dirPin ch d).dir c = if c = ch then (b.dir ch).write d.level else b.dir c :=
  Function.update_apply ..

/-- `configChannel`: the hardware starts at duty 0, past the cache. -/
def configChannel (b : Board) (ch : Channel) : Board :=
  { b with duty := Function.update b.duty ch { b.duty ch with wire := 0 } }

def motorsBrake (b : Board) : Board :=
  (((b.setDuty .left 0).setDuty .right 0).dirPin .left .reverse).dirPin .right .reverse

/-- `initMotors`, the part of `board::init` that touches the motors. -/
def initMotors (b : Board) : Board :=
  ((((b.configChannel .left).configChannel .right).dirPin .left .forward).dirPin .right
    .forward).motorsBrake

variable {F : Type} [CFloat F]

def motorApply (b : Board) (ch : Channel) (v : F) (cap : Nat) : Board :=
  (b.dirPin ch (if v ≥ 0 then .forward else .reverse)).setDuty ch
    (CFloat.toUInt32 (CFloat.fabs (ctl.clampf v (-1) 1) * CFloat.ofInt cap))

def motorsSet (b : Board) (l r : F) (cap : Nat) : Board :=
  (b.motorApply .left l cap).motorApply .right r cap

def applyOutputs (b : Board) (out : CtrlOutputs F) : Board :=
  if out.dynBrake then b.motorsBrake else b.motorsSet out.outL out.outR out.cap

/-- The board at power up: the caches hold their sentinels, the pins anything. -/
def powerUp (duty : Channel → Nat) (level : Channel → Int) : Board where
  duty ch := { last := 4294967295, wire := duty ch }
  dir ch := { last := -1, wire := level ch }

end Board

/-- The controller with the board on its outputs, from `board::init` on. -/
def boardMachine {F : Type} [CFloat F] (cfg₀ : KartConfig F) (duty : Channel → Nat)
    (level : Channel → Int) :
    Mealy.Machine (KartController F × Board) (TickIn F) (TickOut F × Board) :=
  (KartController.machine cfg₀).attach (Board.powerUp duty level).initMotors
    fun b t => b.applyOutputs t.out

/-! ### The caches -/

def Board.Coherent (b : Board) : Prop := ∀ ch, (b.duty ch).Coherent ∧ (b.dir ch).Coherent

namespace Board

variable {b : Board}

theorem Coherent.setDuty (h : b.Coherent) (ch : Channel) (v : Nat) :
    (b.setDuty ch v).Coherent := by
  intro c
  refine ⟨?_, (h c).2⟩
  rw [setDuty_duty]
  split_ifs
  · exact (h ch).1.write v
  · exact (h c).1

theorem Coherent.dirPin (h : b.Coherent) (ch : Channel) (d : Dir) :
    (b.dirPin ch d).Coherent := by
  intro c
  refine ⟨(h c).1, ?_⟩
  rw [dirPin_dir]
  split_ifs
  · exact (h ch).2.write d.level
  · exact (h c).2

theorem Coherent.motorsBrake (h : b.Coherent) : b.motorsBrake.Coherent :=
  (((h.setDuty _ _).setDuty _ _).dirPin _ _).dirPin _ _

theorem Coherent.applyOutputs {F : Type} [CFloat F] (h : b.Coherent) (out : CtrlOutputs F) :
    (b.applyOutputs out).Coherent := by
  unfold Board.applyOutputs
  split_ifs
  · exact h.motorsBrake
  · exact (((h.dirPin _ _).setDuty _ _).dirPin _ _).setDuty _ _

/-- The sentinels equal nothing that `initMotors` writes, so it reaches the pins. -/
theorem initMotors_powerUp (duty : Channel → Nat) (level : Channel → Int) :
    (powerUp duty level).initMotors =
      { duty := fun _ => { last := 0, wire := 0 }, dir := fun _ => { last := 0, wire := 0 } } := by
  have hduty : ((powerUp duty level).initMotors).duty = fun _ => { last := 0, wire := 0 } := by
    funext ch
    cases ch <;> rfl
  have hdir : ((powerUp duty level).initMotors).dir = fun _ => { last := 0, wire := 0 } := by
    funext ch
    cases ch <;> rfl
  rw [← hduty, ← hdir]

theorem initMotors_coherent (duty : Channel → Nat) (level : Channel → Int) :
    (powerUp duty level).initMotors.Coherent := by
  rw [initMotors_powerUp]
  intro ch
  exact ⟨rfl, rfl⟩

section Wires

variable {F : Type} [CFloat F] (out : CtrlOutputs F)

def channelCommand : Channel → F
  | .left => out.outL
  | .right => out.outR

def channelDuty (ch : Channel) : Nat :=
  if out.dynBrake then 0
  else CFloat.toUInt32 (CFloat.fabs (ctl.clampf (channelCommand out ch) (-1) 1) *
    CFloat.ofInt out.cap)

def channelLevel (ch : Channel) : Int :=
  if out.dynBrake then 0 else if channelCommand out ch ≥ 0 then 1 else 0

/-- From coherent caches the pins follow the outputs, whatever they carried. -/
theorem applyOutputs_wire (h : b.Coherent) (ch : Channel) :
    ((b.applyOutputs out).duty ch).wire = channelDuty out ch ∧
      ((b.applyOutputs out).dir ch).wire = channelLevel out ch := by
  cases hbrake : out.dynBrake with
  | true =>
    rw [Board.applyOutputs, channelDuty, channelLevel, if_pos hbrake, if_pos hbrake, if_pos hbrake]
    cases ch <;> simp [motorsBrake, CachedPort.write_wire (h _).1, CachedPort.write_wire (h _).2,
      Dir.level]
  | false =>
    have hnot : ¬ out.dynBrake = true := by simp [hbrake]
    have hlevel : ∀ v : F, (if v ≥ 0 then Dir.forward else Dir.reverse).level =
        if v ≥ 0 then 1 else 0 := by
      intro v
      split_ifs <;> rfl
    rw [Board.applyOutputs, channelDuty, channelLevel, if_neg hnot, if_neg hnot, if_neg hnot]
    cases ch <;> simp only [motorsSet, motorApply, setDuty_duty, setDuty_dir, dirPin_duty,
      dirPin_dir, reduceCtorEq, if_true, if_false, CachedPort.write_wire (h _).1,
      CachedPort.write_wire (h _).2, hlevel, channelCommand] <;>
      exact ⟨trivial, rfl⟩

end Wires

end Board

/-! ### From the wheels to the pins -/

inductive Wheel where
  | left
  | right
deriving DecidableEq, Repr

def CtrlTelemetry.command {F : Type} (t : CtrlTelemetry F) : Wheel → F
  | .left => t.outL
  | .right => t.outR

def KartConfig.motInv {F : Type} (cfg : KartConfig F) : Wheel → Int
  | .left => cfg.motInvL
  | .right => cfg.motInvR

/-- The channel that `mot_swap_lr` routes a wheel to. -/
def KartConfig.channelOf {F : Type} (cfg : KartConfig F) : Wheel → Channel
  | .left => if cfg.motSwapLr ≠ 0 then .right else .left
  | .right => if cfg.motSwapLr ≠ 0 then .left else .right

theorem channelOf_bijective {F : Type} (cfg : KartConfig F) :
    Function.Bijective cfg.channelOf := by
  by_cases hswap : cfg.motSwapLr = 0
  · constructor
    · rintro (_ | _) (_ | _) h <;> simp [KartConfig.channelOf, hswap] at h ⊢
    · rintro (_ | _)
      · exact ⟨.left, by simp [KartConfig.channelOf, hswap]⟩
      · exact ⟨.right, by simp [KartConfig.channelOf, hswap]⟩
  · constructor
    · rintro (_ | _) (_ | _) h <;> simp [KartConfig.channelOf, hswap] at h ⊢
    · rintro (_ | _)
      · exact ⟨.right, by simp [KartConfig.channelOf, hswap]⟩
      · exact ⟨.left, by simp [KartConfig.channelOf, hswap]⟩

section Pins

variable {F : Type} [CFloat F]

/-- A wheel's command reaches its channel with the sign of the wheel. -/
theorem channelCommand_channelOf (cfg₀ : KartConfig F) (w : Nat → TickIn F) (n : Nat)
    (wheel : Wheel) :
    Board.channelCommand (tickAt cfg₀ w n).out ((w n).cfg.channelOf wheel) =
      if (w n).cfg.motInv wheel ≠ 0 then -(tickAt cfg₀ w n).tel.command wheel
      else (tickAt cfg₀ w n).tel.command wheel := by
  rw [tickAt_out, tickAt_tel]
  by_cases hswap : (w n).cfg.motSwapLr = 0 <;>
    cases wheel <;>
      simp only [routeOutputs, KartConfig.channelOf, Board.channelCommand, CtrlTelemetry.command,
        KartConfig.motInv, hswap, ne_eq, not_true_eq_false, not_false_eq_true, if_true, if_false] <;>
      rfl

def boardAt (cfg₀ : KartConfig F) (duty : Channel → Nat) (level : Channel → Int)
    (w : Nat → TickIn F) (n : Nat) : Board :=
  ((boardMachine cfg₀ duty level).outAt w n).2

theorem boardAt_wire (cfg₀ : KartConfig F) (duty : Channel → Nat) (level : Channel → Int)
    (w : Nat → TickIn F) (n : Nat) (ch : Channel) :
    ((boardAt cfg₀ duty level w n).duty ch).wire = Board.channelDuty (tickAt cfg₀ w n).out ch ∧
      ((boardAt cfg₀ duty level w n).dir ch).wire =
        Board.channelLevel (tickAt cfg₀ w n).out ch := by
  have hcoherent : ((boardMachine cfg₀ duty level).stateAt w n).2.Coherent :=
    Mealy.Machine.attach_stateAt_snd _ _ (Board.initMotors_coherent duty level)
      (fun _ t h => h.applyOutputs t.out) n
  have hboard : boardAt cfg₀ duty level w n =
      ((boardMachine cfg₀ duty level).stateAt w n).2.applyOutputs (tickAt cfg₀ w n).out := by
    rw [tickAt, ← Mealy.Machine.attach_outAt_fst]
    rfl
  rw [hboard]
  exact Board.applyOutputs_wire (tickAt cfg₀ w n).out hcoherent ch

end Pins

/-! ### In exact arithmetic -/

theorem dutyCap_exact {cfg : KartConfig ℚ} (h : cfg.InRange) :
    (dutyCap cfg : Int) = ⌊(hw.PWM_MAX : ℚ) * cfg.dutyCapFrac⌋ := by
  have hlow : (0.05 : ℚ) ≤ cfg.dutyCapFrac := h.dutyCapFrac.1
  have hcap : capFrac cfg = cfg.dutyCapFrac := clampf_of_mem (by linarith) h.dutyCapFrac.2
  have hnonneg : (0 : ℚ) ≤ (hw.PWM_MAX : ℚ) * cfg.dutyCapFrac :=
    mul_nonneg (by norm_num [hw.PWM_MAX]) (by linarith)
  rw [← hcap] at hnonneg ⊢
  exact Int.toNat_of_nonneg (Int.floor_nonneg.mpr hnonneg)

/-- A command within `[-1, 1]` reaches its channel as its share of the cap. -/
theorem channelDuty_exact {out : CtrlOutputs ℚ} {ch : Channel}
    (h : |Board.channelCommand out ch| ≤ 1) (hdrive : out.dynBrake = false) :
    (Board.channelDuty out ch : Int) = ⌊|Board.channelCommand out ch| * out.cap⌋ := by
  have hmem := abs_le.mp h
  have hclamp : ctl.clampf (Board.channelCommand out ch) (-1) 1 = Board.channelCommand out ch :=
    clampf_of_mem hmem.1 hmem.2
  have hnonneg : 0 ≤ |Board.channelCommand out ch| * (out.cap : ℚ) :=
    mul_nonneg (abs_nonneg _) (Nat.cast_nonneg _)
  rw [Board.channelDuty, if_neg (by simp [hdrive]), hclamp]
  exact Int.toNat_of_nonneg (Int.floor_nonneg.mpr hnonneg)

theorem abs_channelCommand_le (cfg₀ : KartConfig ℚ) (w : Nat → TickIn ℚ) (n : Nat)
    (ch : Channel) : |Board.channelCommand (tickAt cfg₀ w n).out ch| ≤ 1 := by
  obtain ⟨wheel, rfl⟩ := (channelOf_bijective (w n).cfg).2 ch
  have hcommand := abs_command_le cfg₀ w n
  rw [channelCommand_channelOf]
  split_ifs <;> cases wheel
  · exact (abs_neg _).trans_le hcommand.1
  · exact (abs_neg _).trans_le hcommand.2
  · exact hcommand.1
  · exact hcommand.2

/-- A channel never gets more than the cap. -/
theorem channelDuty_le {out : CtrlOutputs ℚ} {ch : Channel}
    (h : |Board.channelCommand out ch| ≤ 1) :
    ((Board.channelDuty out ch : Nat) : ℚ) ≤ out.cap := by
  cases hbrake : out.dynBrake with
  | true =>
    rw [Board.channelDuty, if_pos hbrake, Nat.cast_zero]
    exact Nat.cast_nonneg _
  | false =>
    have hduty := channelDuty_exact h hbrake
    calc ((Board.channelDuty out ch : Nat) : ℚ)
        = ((⌊|Board.channelCommand out ch| * out.cap⌋ : Int) : ℚ) := by
          rw [← hduty, Int.cast_natCast]
      _ ≤ |Board.channelCommand out ch| * out.cap := Int.floor_le _
      _ ≤ 1 * out.cap := mul_le_mul_of_nonneg_right h (Nat.cast_nonneg _)
      _ = out.cap := one_mul _

theorem cap_le {cfg : KartConfig ℚ} {cap : Nat}
    (hcap : (cap : Int) = ⌊(hw.PWM_MAX : ℚ) * cfg.dutyCapFrac⌋) :
    (cap : ℚ) ≤ cfg.dutyCapFrac * hw.PWM_MAX := by
  have hcast : (cap : ℚ) = ((⌊(hw.PWM_MAX : ℚ) * cfg.dutyCapFrac⌋ : Int) : ℚ) := by
    rw [← hcap, Int.cast_natCast]
  rw [hcast, mul_comm]
  exact Int.floor_le _

/-- **From stick to pins.**  After every tick of a run the pins of each channel
are a function of that tick's outputs: the brake, or the capped share of a command
that is never larger than 1; and each wheel reaches exactly one channel. -/
theorem pins_after_tick {w : Nat → TickIn ℚ} (cfg₀ : KartConfig ℚ) (hconfigs : ConfigsOk w)
    (duty : Channel → Nat) (level : Channel → Int) (n : Nat) :
    (∀ ch,
      if (tickAt cfg₀ w n).out.dynBrake then
        ((boardAt cfg₀ duty level w n).duty ch).wire = 0 ∧
          ((boardAt cfg₀ duty level w n).dir ch).wire = Dir.reverse.level
      else
        (((boardAt cfg₀ duty level w n).duty ch).wire : Int) =
            ⌊|Board.channelCommand (tickAt cfg₀ w n).out ch| * (tickAt cfg₀ w n).out.cap⌋ ∧
          ((boardAt cfg₀ duty level w n).dir ch).wire =
            if 0 ≤ Board.channelCommand (tickAt cfg₀ w n).out ch then Dir.forward.level
            else Dir.reverse.level) ∧
      ((tickAt cfg₀ w n).out.cap : Int) = ⌊(hw.PWM_MAX : ℚ) * (w n).cfg.dutyCapFrac⌋ ∧
      (∀ ch, |Board.channelCommand (tickAt cfg₀ w n).out ch| ≤ 1 ∧
        (((boardAt cfg₀ duty level w n).duty ch).wire : ℚ) ≤
          (w n).cfg.dutyCapFrac * hw.PWM_MAX) ∧
      Function.Bijective (w n).cfg.channelOf ∧
      ∀ wheel, Board.channelCommand (tickAt cfg₀ w n).out ((w n).cfg.channelOf wheel) =
        if (w n).cfg.motInv wheel ≠ 0 then -(tickAt cfg₀ w n).tel.command wheel
        else (tickAt cfg₀ w n).tel.command wheel := by
  have hcap : ((tickAt cfg₀ w n).out.cap : Int) = ⌊(hw.PWM_MAX : ℚ) * (w n).cfg.dutyCapFrac⌋ :=
    dutyCap_exact (hconfigs n)
  refine ⟨?_, hcap, ?_, channelOf_bijective _, channelCommand_channelOf cfg₀ w n⟩
  · intro ch
    obtain ⟨hduty, hdir⟩ := boardAt_wire cfg₀ duty level w n ch
    rw [hduty, hdir]
    split_ifs with hbrake
    · rw [Board.channelDuty, Board.channelLevel, if_pos hbrake, if_pos hbrake]
      exact ⟨rfl, rfl⟩
    all_goals
      have hdrive : (tickAt cfg₀ w n).out.dynBrake = false := by simpa using hbrake
      refine ⟨channelDuty_exact (abs_channelCommand_le cfg₀ w n ch) hdrive, ?_⟩
      rw [Board.channelLevel, if_neg hbrake]
    · exact if_pos ‹_›
    · exact if_neg ‹_›
  · intro ch
    refine ⟨abs_channelCommand_le cfg₀ w n ch, ?_⟩
    rw [(boardAt_wire cfg₀ duty level w n ch).1]
    exact (channelDuty_le (abs_channelCommand_le cfg₀ w n ch)).trans (cap_le hcap)

theorem pins_after_tick_exactRun :
    ((tickAt exactCfg (exactRun exactCfg) 2).out.cap : Int) = ⌊((hw.PWM_MAX : Int) : ℚ) * 1⌋ :=
  (pins_after_tick (w := exactRun exactCfg) exactCfg (fun _ => exactCfg_inRange)
    (fun _ => 17) (fun _ => 1) 2).2.1

end KartFirmware

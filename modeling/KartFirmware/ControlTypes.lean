import KartFirmware.CFloat

/-!
# Control types and constants

The pure types of `control_types.hpp`: the `hw::` constants, `KartConfig` with
its members, and the enumerations published by the controller.  Integers are
unbounded (`Int`); where a narrowing to `int32_t` matters it is written out.

A pointer to member of `KartConfig` (`CfgField`) is a value of `FloatField` or
`IntField`: one constructor for each `float` and each `int32_t` member.  Reading
and writing through it are `getF`, `setF`, `getI` and `setI`.
-/

namespace KartFirmware

/-! ### Hardware constants -/

namespace hw

variable {F : Type} [CFloat F]

def CTRL_HZ : Int := 500
/-- `1.0f / CTRL_HZ`, a `float` division. -/
def CTRL_DT_S : F := 1 / CFloat.ofInt CTRL_HZ
def PWM_MAX : Int := 4095
def ARM_CENTER_MAX : F := 0.08
def PAD_HB_TIMEOUT_US : Int := 750000
def PUSH_MIN : F := 0.5
def RUMBLE_BLOCK_INTERVAL_US : Int := 800000

end hw

/-! ### Enumerations -/

inductive State where
  | lockout
  | calibrate
  | run
deriving DecidableEq, Repr

/-- Effective output mode: driving, phase short-circuit, pseudo-freewheel. -/
inductive BrakeMode where
  | none
  | dynamic
  | coast
deriving DecidableEq, Repr

/-- Why the kart will not drive.  One cause: the first condition that holds. -/
inductive Stop where
  | none
  | padLost
  | padStale
  | eStop
  | notCalibrated
deriving DecidableEq, Repr

/-! ### The configuration -/

structure KartConfig (F : Type) where
  dutyCapFrac : F
  thrDeadzone : F
  turnGain : F
  mixType : Int
  mixExpoFwd : F
  mixExpoTurn : F
  accelPctS : Int
  decelPctS : Int
  motInvL : Int
  motInvR : Int
  motSwapLr : Int
  armHoldMs : Int
  disarmS : Int
  ledCount : Int
  ledBrightness : Int
deriving DecidableEq

inductive FloatField where
  | dutyCapFrac
  | thrDeadzone
  | turnGain
  | mixExpoFwd
  | mixExpoTurn
deriving DecidableEq, Repr

inductive IntField where
  | mixType
  | accelPctS
  | decelPctS
  | motInvL
  | motInvR
  | motSwapLr
  | armHoldMs
  | disarmS
  | ledCount
  | ledBrightness
deriving DecidableEq, Repr

namespace KartConfig

variable {F : Type}

def getF (c : KartConfig F) : FloatField → F
  | .dutyCapFrac => c.dutyCapFrac
  | .thrDeadzone => c.thrDeadzone
  | .turnGain => c.turnGain
  | .mixExpoFwd => c.mixExpoFwd
  | .mixExpoTurn => c.mixExpoTurn

def setF (c : KartConfig F) (field : FloatField) (v : F) : KartConfig F :=
  match field with
  | .dutyCapFrac => { c with dutyCapFrac := v }
  | .thrDeadzone => { c with thrDeadzone := v }
  | .turnGain => { c with turnGain := v }
  | .mixExpoFwd => { c with mixExpoFwd := v }
  | .mixExpoTurn => { c with mixExpoTurn := v }

def getI (c : KartConfig F) : IntField → Int
  | .mixType => c.mixType
  | .accelPctS => c.accelPctS
  | .decelPctS => c.decelPctS
  | .motInvL => c.motInvL
  | .motInvR => c.motInvR
  | .motSwapLr => c.motSwapLr
  | .armHoldMs => c.armHoldMs
  | .disarmS => c.disarmS
  | .ledCount => c.ledCount
  | .ledBrightness => c.ledBrightness

def setI (c : KartConfig F) (field : IntField) (v : Int) : KartConfig F :=
  match field with
  | .mixType => { c with mixType := v }
  | .accelPctS => { c with accelPctS := v }
  | .decelPctS => { c with decelPctS := v }
  | .motInvL => { c with motInvL := v }
  | .motInvR => { c with motInvR := v }
  | .motSwapLr => { c with motSwapLr := v }
  | .armHoldMs => { c with armHoldMs := v }
  | .disarmS => { c with disarmS := v }
  | .ledCount => { c with ledCount := v }
  | .ledBrightness => { c with ledBrightness := v }

variable (c : KartConfig F)

@[simp] theorem getF_setF_same (f : FloatField) (v : F) : (c.setF f v).getF f = v := by
  cases f <;> rfl

theorem getF_setF_of_ne {f g : FloatField} (h : g ≠ f) (v : F) :
    (c.setF f v).getF g = c.getF g := by
  cases f <;> cases g <;> first | rfl | exact absurd rfl h

@[simp] theorem getF_setI (f : FloatField) (i : IntField) (v : Int) :
    (c.setI i v).getF f = c.getF f := by
  cases i <;> cases f <;> rfl

@[simp] theorem getI_setI_same (i : IntField) (v : Int) : (c.setI i v).getI i = v := by
  cases i <;> rfl

theorem getI_setI_of_ne {i j : IntField} (h : j ≠ i) (v : Int) :
    (c.setI i v).getI j = c.getI j := by
  cases i <;> cases j <;> first | rfl | exact absurd rfl h

@[simp] theorem getI_setF (i : IntField) (f : FloatField) (v : F) :
    (c.setF f v).getI i = c.getI i := by
  cases f <;> cases i <;> rfl

end KartConfig

end KartFirmware

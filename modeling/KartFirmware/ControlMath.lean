import KartFirmware.ControlTypes

/-!
# Control math and mixers

The pure functions of `control_math.hpp` and `mixer.hpp`, over any `CFloat`.
-/

namespace KartFirmware

namespace ctl

variable {F : Type} [CFloat F]

def clampf (v lo hi : F) : F := if v < lo then lo else if v > hi then hi else v

/-- Deadzone with remapping: `[dz..1]` goes to `[0..1]`. -/
def deadzone (v dz : F) : F :=
  if CFloat.fabs v ≤ dz then 0
  else
    let s : F := if v > 0 then 1 else -1
    s * (CFloat.fabs v - dz) / (1 - dz)

def slew (target current rate dt : F) : F :=
  let step := rate * dt
  let diff := target - current
  if diff > step then current + step
  else if diff < -step then current - step
  else target

/-- The last part of `ramp`: the rate of the side the command moves to, and the
slope limiter at that rate. -/
def rampSide (target current up dn dt : F) : F :=
  let rate := if CFloat.fabs target > CFloat.fabs current then up else dn
  if rate ≤ 0 then target else slew target current rate dt

/-- Asymmetric rate limiter: `up` bounds the growth away from zero, `dn` the
fall back toward it.  A reversal is the two in sequence. -/
def ramp (target current up dn dt : F) : F :=
  if target * current < 0 then
    if dn > 0 then
      let zeroed := slew 0 current dn dt
      -- `current` is only set to 0 once the fall has arrived there
      if CFloat.eq 0 zeroed then rampSide target 0 up dn dt else zeroed
    else rampSide target 0 up dn dt
  else rampSide target current up dn dt

def mixArcade (fwd turn gain : F) : F × F :=
  (clampf (fwd + turn * gain) (-1) 1, clampf (fwd - turn * gain) (-1) 1)

end ctl

namespace mixdet

variable {F : Type} [CFloat F]

def expo (x e : F) : F :=
  let e := ctl.clampf e 0 1
  (1 - e) * x + e * x * x * x

end mixdet

variable {F : Type} [CFloat F]

def MixerLinear.mix (fwd turn : F) (cfg : KartConfig F) : F × F :=
  ctl.mixArcade fwd turn cfg.turnGain

def MixerExpo.mix (fwd turn : F) (cfg : KartConfig F) : F × F :=
  ctl.mixArcade (mixdet.expo fwd cfg.mixExpoFwd) (mixdet.expo turn cfg.mixExpoTurn) cfg.turnGain

/-- Config value to mixer; an unknown value falls back to the linear one. -/
def mixerFor (type : Int) : F → F → KartConfig F → F × F :=
  if type = 1 then MixerExpo.mix else MixerLinear.mix

end KartFirmware

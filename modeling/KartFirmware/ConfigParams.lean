import KartFirmware.ControlTypes

/-!
# The parameter table

`PARAMS` is the single source of truth for the settings: for every entry its
texts, its type, its bounds and default, and the member of `KartConfig` it
names.  The typed part of a `ParamDesc` (`type`, the `CfgVal` unions and the
`CfgField` pointer) is one value of `ParamEntry`, so that the union members
always match the type.

Access is widened to and narrowed from `float` (`cfgGet`, `cfgSet`).  The
narrowing goes through `std::lround`, a parameter `lround` here because C leaves
its result open where the rounded value fits no `long`.
-/

namespace KartFirmware

/-- The two integer parameter types, `PType::Int` and `PType::Bool`. -/
inductive IntType where
  | int
  | bool
deriving DecidableEq, Repr

/-- The typed part of a table entry: type, minimum, default, maximum, member. -/
inductive ParamEntry (F : Type) where
  | float (min dflt max : F) (field : FloatField)
  | int (type : IntType) (min dflt max : Int) (field : IntField)

structure ParamDesc (F : Type) where
  name : String
  desc : String
  cat : String
  help : String
  entry : ParamEntry F

variable {F : Type} [CFloat F]

def PARAMS : List (ParamDesc F) :=
  [ ⟨"duty_cap", "PWM cap (0-1)", "Speed & power",
    "PWM ceiling for both motors - the ONLY speed limit (no encoders, no rollover " ++
      "protection). In simulation (18T-32T chain) a full turn at full speed TIPS the kart " ++
      "at 1.0 with a child sitting to one side or an adult aboard; two children centred " ++
      "stay upright. 0.9 keeps all three load cases upright, 0.8 gives the margin the old " ++
      "protection had.",
    .float 0.05 1 1 .dutyCapFrac⟩,
  ⟨"thr_deadzone", "Stick deadzone", "Gamepad",
    "Radius around the stick center where the position is ignored (0-0.3). Inside it, " ++
      "with A held, the kart freewheels.",
    .float 0 0.06 0.30 .thrDeadzone⟩,
  ⟨"turn_gain", "Turn gain (0-1)", "Gamepad",
    "Share of the left/right differential at full stick. 1 = pivot in place at full " ++
      "power.",
    .float 0 1 1 .turnGain⟩,
  ⟨"mix_type", "Mixing type (0/1)", "Drive feel",
    "How the stick maps to the motors. 0 = linear. 1 = expo: gentle around center, full " ++
      "authority at the stops (recommended for a child).",
    .int .int 0 0 1 .mixType⟩,
  ⟨"mix_expo_fwd", "Expo throttle (0-1)", "Drive feel",
    "Exponential strength on the throttle axis (mixing type 1). 0 = linear, 1 = cubic " ++
      "(softest mid-range). Half-stick gives 31% drive at 0.5 instead of 50%.",
    .float 0 0.5 1 .mixExpoFwd⟩,
  ⟨"mix_expo_turn", "Expo steering (0-1)", "Drive feel",
    "Exponential strength on the steering axis (mixing type 1). Tames twitchy steering " ++
      "around center without giving up the full pivot at the stops.",
    .float 0 0.6 1 .mixExpoTurn⟩,
  ⟨"accel_pct_s", "Accel ramp (%/s)", "Drive feel",
    "How fast the PWM may RISE, in % of full duty per second: 100 = a full second from " ++
      "standstill to full power, 200 = half a second. Spares the motor drivers and the " ++
      "chain the current spike of a stick slammed open, and makes the kart pull away " ++
      "smoothly. 0 = no limit, the stick goes straight through.",
    .int .int 0 200 1000 .accelPctS⟩,
  ⟨"decel_pct_s", "Decel ramp (%/s)", "Drive feel",
    "How fast the PWM may FALL back toward 0, same units. This is the freewheel: with A " ++
      "held and the stick centred the command slides to 0 at this rate instead of dropping " ++
      "(100 = one second from full power, 50 = two seconds), so the motor neither pushes " ++
      "nor brakes much on the way. It also smooths a stick pulled back. 0 = no limit: the " ++
      "command drops at once, which on this driver IS the brake.",
    .int .int 0 100 1000 .decelPctS⟩,
  ⟨"mot_inv_l", "Invert LEFT motor", "Behavior",
    "Flips the LEFT motor direction (= swapping its two leads). Set it if the left wheel " ++
      "turns backwards on forward stick (wheels in the air).",
    .int .bool 0 0 1 .motInvL⟩,
  ⟨"mot_inv_r", "Invert RIGHT motor", "Behavior",
    "Same for the RIGHT motor.",
    .int .bool 0 0 1 .motInvR⟩,
  ⟨"mot_swap_lr", "Swap LEFT/RIGHT motors", "Behavior",
    "1 = the motors are on crossed driver channels: forward is right but the steering is " ++
      "mirrored. The inversions above still name the WHEEL.",
    .int .bool 0 0 1 .motSwapLr⟩,
  ⟨"arm_hold_ms", "Arming hold (ms)", "Behavior",
    "Held press duration on the gamepad's START/Options button to arm, centered stick " ++
      "required. Once armed, the kart only moves while A is held.",
    .int .int 200 1000 5000 .armHoldMs⟩,
  ⟨"disarm_s", "Auto disarm (s)", "Behavior",
    "Automatic disarm after this delay without driving (A held + stick).",
    .int .int 5 30 600 .disarmS⟩,
  ⟨"led_count", "Strip LED count", "LEDs",
    "Number of WS2812 LEDs on the status strip.",
    .int .int 1 10 60 .ledCount⟩,
  ⟨"led_brightness", "LED brightness", "LEDs",
    "Strip brightness (1-255).",
    .int .int 1 64 255 .ledBrightness⟩]

/-! ### Typed access -/

/-- `static_cast<int32_t>` of an integer: reduction modulo `2^32`. -/
def toInt32 (n : Int) : Int := n.bmod (2 ^ 32)

def stdClamp (v lo hi : F) : F := if v < lo then lo else if hi < v then hi else v

def cfgGet (c : KartConfig F) (p : ParamDesc F) : F :=
  match p.entry with
  | .float _ _ _ field => c.getF field
  | .int _ _ _ _ field => CFloat.ofInt (c.getI field)

def cfgSet (lround : F → Int) (c : KartConfig F) (p : ParamDesc F) (v : F) : KartConfig F :=
  match p.entry with
  | .float _ _ _ field => c.setF field v
  | .int _ _ _ _ field => c.setI field (toInt32 (lround v))

def cfgMin (p : ParamDesc F) : F :=
  match p.entry with
  | .float lo _ _ _ => lo
  | .int _ lo _ _ _ => CFloat.ofInt lo

def cfgMax (p : ParamDesc F) : F :=
  match p.entry with
  | .float _ _ hi _ => hi
  | .int _ _ _ hi _ => CFloat.ofInt hi

def cfgDef (p : ParamDesc F) : F :=
  match p.entry with
  | .float _ d _ _ => d
  | .int _ _ d _ _ => CFloat.ofInt d

namespace KartConfig

def setDefaults (lround : F → Int) (c : KartConfig F) : KartConfig F :=
  PARAMS.foldl (fun c p => cfgSet lround c p (cfgDef p)) c

/-- One turn of the loop of `clampAll`. -/
def clampParam (lround : F → Int) (c : KartConfig F) (p : ParamDesc F) : KartConfig F :=
  cfgSet lround c p (stdClamp (cfgGet c p) (cfgMin p) (cfgMax p))

def clampAll (lround : F → Int) (c : KartConfig F) : KartConfig F :=
  PARAMS.foldl (clampParam lround) c

end KartConfig

/-! ### Being in range -/

/-- The member named by an entry lies between its bounds. -/
def ParamEntry.InRange (c : KartConfig F) : ParamEntry F → Prop
  | .float lo _ hi field => lo ≤ c.getF field ∧ c.getF field ≤ hi
  | .int _ lo _ hi field => lo ≤ c.getI field ∧ c.getI field ≤ hi

instance (c : KartConfig F) (e : ParamEntry F) : Decidable (e.InRange c) := by
  cases e <;> unfold ParamEntry.InRange <;> infer_instance

def KartConfig.InRange (c : KartConfig F) : Prop := ∀ p ∈ PARAMS, p.entry.InRange c

instance (c : KartConfig F) : Decidable c.InRange :=
  inferInstanceAs (Decidable (∀ p ∈ PARAMS, p.entry.InRange c))

theorem map_entry_PARAMS : (PARAMS : List (ParamDesc F)).map ParamDesc.entry =
    [.float 0.05 1 1 .dutyCapFrac, .float 0 0.06 0.30 .thrDeadzone, .float 0 1 1 .turnGain,
      .int .int 0 0 1 .mixType, .float 0 0.5 1 .mixExpoFwd, .float 0 0.6 1 .mixExpoTurn,
      .int .int 0 200 1000 .accelPctS, .int .int 0 100 1000 .decelPctS,
      .int .bool 0 0 1 .motInvL, .int .bool 0 0 1 .motInvR, .int .bool 0 0 1 .motSwapLr,
      .int .int 200 1000 5000 .armHoldMs, .int .int 5 30 600 .disarmS,
      .int .int 1 10 60 .ledCount, .int .int 1 64 255 .ledBrightness] := rfl

namespace KartConfig

variable {c : KartConfig F}

theorem InRange.entry (h : c.InRange) {e : ParamEntry F}
    (he : e ∈ (PARAMS : List (ParamDesc F)).map ParamDesc.entry) : e.InRange c := by
  obtain ⟨p, hp, rfl⟩ := List.mem_map.mp he
  exact h p hp

theorem InRange.dutyCapFrac (h : c.InRange) : 0.05 ≤ c.dutyCapFrac ∧ c.dutyCapFrac ≤ 1 :=
  h.entry (e := .float 0.05 1 1 .dutyCapFrac) (by simp [map_entry_PARAMS])

theorem InRange.thrDeadzone (h : c.InRange) : 0 ≤ c.thrDeadzone ∧ c.thrDeadzone ≤ 0.30 :=
  h.entry (e := .float 0 0.06 0.30 .thrDeadzone) (by simp [map_entry_PARAMS])

theorem InRange.turnGain (h : c.InRange) : 0 ≤ c.turnGain ∧ c.turnGain ≤ 1 :=
  h.entry (e := .float 0 1 1 .turnGain) (by simp [map_entry_PARAMS])

theorem InRange.accelPctS (h : c.InRange) : 0 ≤ c.accelPctS ∧ c.accelPctS ≤ 1000 :=
  h.entry (e := .int .int 0 200 1000 .accelPctS) (by simp [map_entry_PARAMS])

theorem InRange.decelPctS (h : c.InRange) : 0 ≤ c.decelPctS ∧ c.decelPctS ≤ 1000 :=
  h.entry (e := .int .int 0 100 1000 .decelPctS) (by simp [map_entry_PARAMS])

theorem InRange.armHoldMs (h : c.InRange) : 200 ≤ c.armHoldMs ∧ c.armHoldMs ≤ 5000 :=
  h.entry (e := .int .int 200 1000 5000 .armHoldMs) (by simp [map_entry_PARAMS])

theorem InRange.disarmS (h : c.InRange) : 5 ≤ c.disarmS ∧ c.disarmS ≤ 600 :=
  h.entry (e := .int .int 5 30 600 .disarmS) (by simp [map_entry_PARAMS])

/-- In range but for `mix_type`, which may be any value.  `mixerFor` reads an
unknown value as the linear mixer. -/
def InRangeAnyMix (c : KartConfig F) : Prop := ({ c with mixType := 0 } : KartConfig F).InRange

instance (c : KartConfig F) : Decidable c.InRangeAnyMix :=
  inferInstanceAs (Decidable (KartConfig.InRange _))

theorem InRangeAnyMix.dutyCapFrac (h : c.InRangeAnyMix) :
    0.05 ≤ c.dutyCapFrac ∧ c.dutyCapFrac ≤ 1 := by
  have hlinear : ({ c with mixType := 0 } : KartConfig F).InRange := h
  exact hlinear.dutyCapFrac

theorem InRangeAnyMix.thrDeadzone (h : c.InRangeAnyMix) :
    0 ≤ c.thrDeadzone ∧ c.thrDeadzone ≤ 0.30 := by
  have hlinear : ({ c with mixType := 0 } : KartConfig F).InRange := h
  exact hlinear.thrDeadzone

end KartConfig

end KartFirmware

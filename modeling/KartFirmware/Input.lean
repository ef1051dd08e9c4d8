import KartFirmware.ControllerCore

/-!
# The gamepad input and its calibration

`input.cpp`: the live state written by the Bluetooth backend, the calibration in
force, and the wizard that replaces it.  The armed flag that `refusedArmed` reads
from the published status, the clock and the answers of the NVS calls are
arguments.  Name and battery of the gamepad, the rumble relay and the report gap
histogram, which nothing here reads, are left out.

A calibration attempt is an accepted `calStart`, HID frames, and an end.  An
attempt that fails leaves the half-amplitudes, the flag and the stored copy alone
but not the center, which `calStart` has already overwritten
(`failed_calibration_iff`).
-/

set_option linter.unusedSectionVars false

namespace KartFirmware

/-- `std::sqrt`. -/
class CSqrt (F : Type) where
  sqrt : F → F

instance : CSqrt Float32 := ⟨Float32.sqrt⟩

namespace ctl

/-- Circle to square compensation: a radial stretch that reaches the corners. -/
def squareMap {F : Type} [CFloat F] [CSqrt F] (x y : F) : F × F :=
  let ax := CFloat.fabs x
  let ay := CFloat.fabs y
  let m := if ax > ay then ax else ay
  if m > 1e-3 then
    let scale := CSqrt.sqrt (x * x + y * y) / m
    (clampf (x * scale) (-1) 1, clampf (y * scale) (-1) 1)
  else (x, y)

end ctl

/-! ### State -/

/-- The calibration in force: `m_calibrated`, the center, the half-amplitudes. -/
structure Calibration (F : Type) where
  calibrated : Bool
  cx : F
  cy : F
  hx : F
  hy : F
deriving DecidableEq

/-- The NVS namespace `pad`: the blob `cal`, if it has the size of four floats,
and the byte `ok`. -/
structure PadNvs (F : Type) where
  cal : Option (F × F × F × F)
  ok : Option Nat
deriving DecidableEq

structure PadNvsResults where
  opens : Bool
  setsBlob : Bool
  setsOk : Bool

structure HidReport (F : Type) where
  x : F
  y : F
  estop : Bool
  start : Bool
  drive : Bool
  buttons : Nat
  zl : F
  zr : F
  rx2 : F
  ry2 : F

structure Input (F : Type) where
  lastReportUs : Int
  raw : HidReport F
  connected : Bool
  pairing : Bool
  cal : Calibration F
  calState : Int
  minX : F
  maxX : F
  minY : F
  maxY : F
  nvs : PadNvs F

structure PadState (F : Type) where
  x : F
  y : F
  rx : F
  ry : F
  zl : F
  zr : F
  rx2 : F
  ry2 : F
  buttons : Nat
  connected : Bool
  estop : Bool
  start : Bool
  drive : Bool

namespace Input

variable {F : Type} [CFloat F]

def noReport : HidReport F where
  x := 0
  y := 0
  estop := false
  start := false
  drive := false
  buttons := 0
  zl := 0
  zr := 0
  rx2 := 0
  ry2 := 0

/-- The module's statics at boot, over an NVS content. -/
def boot (nvs : PadNvs F) : Input F where
  lastReportUs := 0
  raw := noReport
  connected := false
  pairing := false
  cal := { calibrated := false, cx := 0, cy := 0, hx := 1, hy := 1 }
  calState := 0
  minX := 0
  maxX := 0
  minY := 0
  maxY := 0
  nvs := nvs

/-! ### The stored copy -/

def calSave (s : Input F) (r : PadNvsResults) : Input F :=
  if r.opens then
    { s with nvs :=
        { cal := if r.setsBlob then some (s.cal.cx, s.cal.cy, s.cal.hx, s.cal.hy) else s.nvs.cal
          ok := if r.setsOk then some (if s.cal.calibrated then 1 else 0) else s.nvs.ok } }
  else s

def calLoad (s : Input F) (opens : Bool) : Input F :=
  if opens then
    let cal := match s.nvs.cal with
      | some (cx, cy, hx, hy) => { s.cal with cx := cx, cy := cy, hx := hx, hy := hy }
      | none => s.cal
    { s with cal := { cal with calibrated := decide (s.nvs.ok.getD 0 ≠ 0) } }
  else s

def calClear (s : Input F) (r : PadNvsResults) : Input F :=
  calSave { s with cal := { s.cal with calibrated := false }, calState := 0 } r

theorem calClear_calState (s : Input F) (r : PadNvsResults) : (s.calClear r).calState = 0 := by
  unfold calClear calSave
  split_ifs <;> rfl

/-! ### The Bluetooth hooks -/

def onData (s : Input F) (now : Int) (rep : HidReport F) : Input F :=
  let s := { s with lastReportUs := now, raw := rep }
  if s.calState = 1 then
    { s with
      minX := if rep.x < s.minX then rep.x else s.minX
      maxX := if rep.x > s.maxX then rep.x else s.maxX
      minY := if rep.y < s.minY then rep.y else s.minY
      maxY := if rep.y > s.maxY then rep.y else s.maxY }
  else s

/-- `inputbp_on_conn`: a lost gamepad cancels a calibration and is purged. -/
def onConn (s : Input F) (connected : Bool) : Input F :=
  if connected then { s with connected := true, pairing := false }
  else
    { s with
      connected := false
      raw := noReport
      calState := if s.calState = 1 then 0 else s.calState }

/-! ### The state handed to the controller -/

def calibrated (s : Input F) : Bool := s.cal.calibrated && decide (s.calState ≠ 1)

/-- The calibrated and squared stick for a raw position. -/
def mapStick [CSqrt F] (cal : Calibration F) (x y : F) : F × F :=
  let sx := if cal.hx > 0.05 then (x - cal.cx) / cal.hx else 0
  let sy := if cal.hy > 0.05 then (y - cal.cy) / cal.hy else 0
  ctl.squareMap (stdClamp sx (-1) 1) (stdClamp sy (-1) 1)

def get [CSqrt F] (s : Input F) : PadState F :=
  if !s.connected then
    { x := 0, y := 0, rx := 0, ry := 0, zl := 0, zr := 0, rx2 := 0, ry2 := 0, buttons := 0
      connected := false, estop := false, start := false, drive := false }
  else
    let stick := if !s.cal.calibrated || decide (s.calState = 1) then ((0 : F), (0 : F))
      else mapStick s.cal s.raw.x s.raw.y
    { x := stick.1
      y := stick.2
      rx := stdClamp s.raw.x (-1) 1
      ry := stdClamp s.raw.y (-1) 1
      zl := s.raw.zl
      zr := s.raw.zr
      rx2 := stdClamp s.raw.rx2 (-1) 1
      ry2 := stdClamp s.raw.ry2 (-1) 1
      buttons := s.raw.buttons
      connected := true
      estop := s.raw.estop
      start := s.raw.start
      drive := s.raw.drive }

/-! ### The commands of the web page -/

def padDataFresh (s : Input F) (now : Int) : Bool :=
  s.connected && decide (now - s.lastReportUs < hw.PAD_HB_TIMEOUT_US)

def startPairing (s : Input F) (armed : Bool) (r : PadNvsResults) : Input F :=
  if armed then s else calClear { s with pairing := true } r

/-- `inputbp_unpair`, which it ends with, calls the hook of a lost gamepad. -/
def unpair (s : Input F) (armed : Bool) (r : PadNvsResults) : Input F :=
  if armed then s
  else (calClear { s with connected := false, pairing := false } r).onConn false

/-- Captures the center and starts collecting the extremes. -/
def calStart (s : Input F) (armed : Bool) (now : Int) : Input F :=
  if armed then s
  else if !s.padDataFresh now then s
  else
    { s with
      cal := { s.cal with cx := s.raw.x, cy := s.raw.y }
      minX := s.raw.x
      maxX := s.raw.x
      minY := s.raw.y
      maxY := s.raw.y
      calState := 1 }

def amplitudeX (s : Input F) : F := stdMax (s.cal.cx - s.minX) (s.maxX - s.cal.cx)

def amplitudeY (s : Input F) : F := stdMax (s.cal.cy - s.minY) (s.maxY - s.cal.cy)

/-- `calFinish` takes the calibration over: the gamepad still emits and both
amplitudes suffice. -/
def finishAccepts (s : Input F) (now : Int) : Bool :=
  s.padDataFresh now && decide (s.amplitudeX > 0.2) && decide (s.amplitudeY > 0.2)

def calFinish (s : Input F) (now : Int) (r : PadNvsResults) : Input F :=
  if s.calState ≠ 1 then s
  else
    let hx := s.amplitudeX
    let hy := s.amplitudeY
    let s := { s with calState := 0 }
    if !s.padDataFresh now then s
    else if hx > 0.2 ∧ hy > 0.2 then
      calSave { s with cal := { s.cal with hx := hx, hy := hy, calibrated := true } } r
    else s

def calCancel (s : Input F) : Input F := { s with calState := 0 }

/-! ### A calibration attempt -/

inductive HidFrame (F : Type) where
  | data (now : Int) (rep : HidReport F)
  | conn

def onFrame (s : Input F) : HidFrame F → Input F
  | .data now rep => s.onData now rep
  | .conn => s.onConn true

inductive AttemptEnd where
  | cancel
  | disconnect
  | finish (now : Int) (r : PadNvsResults)

def endAttempt (s : Input F) : AttemptEnd → Input F
  | .cancel => s.calCancel
  | .disconnect => s.onConn false
  | .finish now r => s.calFinish now r

/-- The end is one that does not take the calibration over. -/
def EndFails (s : Input F) : AttemptEnd → Prop
  | .cancel => True
  | .disconnect => True
  | .finish now _ => s.finishAccepts now = false

def attempt (s : Input F) (now : Int) (frames : List (HidFrame F)) (e : AttemptEnd) : Input F :=
  (frames.foldl onFrame (s.calStart false now)).endAttempt e

/-- The stored copy holds the calibration in force. -/
def StoredCopy (s : Input F) : Prop :=
  s.nvs.cal = some (s.cal.cx, s.cal.cy, s.cal.hx, s.cal.hy) ∧
    s.nvs.ok = some (if s.cal.calibrated then 1 else 0)

/-- What a failed attempt should leave alone: the calibration in force, the map
from raw to calibrated stick, and its agreement with the stored copy. -/
structure Undone [CSqrt F] (s s' : Input F) : Prop where
  cal : s'.cal = s.cal
  map : ∀ x y, mapStick s'.cal x y = mapStick s.cal x y
  stored : s.StoredCopy → s'.StoredCopy

theorem calStart_accepted {s : Input F} {now : Int} (h : s.padDataFresh now = true) :
    s.calStart false now =
      { s with
        cal := { s.cal with cx := s.raw.x, cy := s.raw.y }
        minX := s.raw.x
        maxX := s.raw.x
        minY := s.raw.y
        maxY := s.raw.y
        calState := 1 } := by
  rw [calStart, if_neg (by simp), if_neg (by simp [h])]

theorem onFrame_frame (s : Input F) (frame : HidFrame F) :
    (s.onFrame frame).cal = s.cal ∧ (s.onFrame frame).nvs = s.nvs ∧
      (s.onFrame frame).calState = s.calState := by
  cases frame with
  | data now rep =>
    simp only [onFrame, onData]
    split_ifs <;> exact ⟨rfl, rfl, rfl⟩
  | conn => exact ⟨rfl, rfl, rfl⟩

theorem foldl_onFrame (frames : List (HidFrame F)) (s : Input F) :
    (frames.foldl onFrame s).cal = s.cal ∧ (frames.foldl onFrame s).nvs = s.nvs ∧
      (frames.foldl onFrame s).calState = s.calState := by
  induction frames generalizing s with
  | nil => exact ⟨rfl, rfl, rfl⟩
  | cons frame frames ih =>
    obtain ⟨hcal, hnvs, hstate⟩ := onFrame_frame s frame
    obtain ⟨hcal', hnvs', hstate'⟩ := ih (s.onFrame frame)
    exact ⟨hcal'.trans hcal, hnvs'.trans hnvs, hstate'.trans hstate⟩

theorem endAttempt_of_fails {s : Input F} {e : AttemptEnd} (h : s.EndFails e) :
    (s.endAttempt e).cal = s.cal ∧ (s.endAttempt e).nvs = s.nvs := by
  cases e with
  | cancel => exact ⟨rfl, rfl⟩
  | disconnect => exact ⟨rfl, rfl⟩
  | finish now r =>
    have hfails : s.finishAccepts now = false := h
    simp only [endAttempt, calFinish]
    split_ifs with hstate hfresh hamp
    · exact ⟨rfl, rfl⟩
    · exact ⟨rfl, rfl⟩
    · -- fresh data and both amplitudes: this is the end that succeeds
      have hfresh' : s.padDataFresh now = true := by
        by_contra hstale
        rw [Bool.not_eq_true] at hstale
        exact hfresh ((congrArg Bool.not hstale : (!s.padDataFresh now) = true))
      rw [finishAccepts, hfresh', decide_eq_true hamp.1, decide_eq_true hamp.2] at hfails
      exact Bool.noConfusion hfails
    · exact ⟨rfl, rfl⟩

/-- What a failed attempt really leaves: the center it captured at its start, and
everything else as it was. -/
theorem attempt_of_fails {s : Input F} {now : Int} (haccepted : s.padDataFresh now = true)
    {frames : List (HidFrame F)} {e : AttemptEnd}
    (hfails : (frames.foldl onFrame (s.calStart false now)).EndFails e) :
    (s.attempt now frames e).cal = { s.cal with cx := s.raw.x, cy := s.raw.y } ∧
      (s.attempt now frames e).nvs = s.nvs := by
  obtain ⟨hcal, hnvs⟩ := endAttempt_of_fails hfails
  obtain ⟨hcal', hnvs', -⟩ := foldl_onFrame frames (s.calStart false now)
  have hstart := calStart_accepted haccepted
  rw [attempt, hcal, hnvs, hcal', hnvs', hstart]
  exact ⟨rfl, rfl⟩

/-- **When a failed calibration changes nothing.**  Exactly when the stick stood
at the center in force, to the last bit, as the attempt began. -/
theorem failed_calibration_iff [CSqrt F] {s : Input F} {now : Int}
    (haccepted : s.padDataFresh now = true) (frames : List (HidFrame F)) (e : AttemptEnd)
    (hfails : (frames.foldl onFrame (s.calStart false now)).EndFails e) :
    Undone s (s.attempt now frames e) ↔ s.raw.x = s.cal.cx ∧ s.raw.y = s.cal.cy := by
  obtain ⟨hcal, hnvs⟩ := attempt_of_fails haccepted hfails
  constructor
  · intro hundone
    have hsame := hcal.symm.trans hundone.cal
    exact ⟨congrArg Calibration.cx hsame, congrArg Calibration.cy hsame⟩
  · rintro ⟨hx, hy⟩
    have hsame : (s.attempt now frames e).cal = s.cal := by
      rw [hcal, hx, hy]
    refine ⟨hsame, fun x y => by rw [hsame], fun hstored => ?_⟩
    rw [StoredCopy, hsame, hnvs]
    exact hstored

end Input

/-! ### A gamepad on the bench -/

/-- A calibrated gamepad: the copy in the NVS, loaded at boot, then connected,
reporting the stick half right. -/
def benchInput : Input Float32 :=
  let nvs : PadNvs Float32 := { cal := some (0, 0, 1, 1), ok := some 1 }
  (((Input.boot nvs).calLoad true).onConn true).onData 1000
    { (Input.noReport : HidReport Float32) with x := 0.5 }

theorem failed_calibration_iff_bench :
    Input.Undone benchInput (benchInput.attempt 2000 [.conn] .cancel) ↔
      benchInput.raw.x = benchInput.cal.cx ∧ benchInput.raw.y = benchInput.cal.cy :=
  Input.failed_calibration_iff (s := benchInput) (by decide +kernel) [.conn] .cancel trivial

/-- `calStart` with the stick half right, then `calCancel`: the calibration was
the stored one and still counts as valid, but its center is now the stick's
position, and a centred stick maps to half left. -/
theorem cancel_keeps_new_center :
    benchInput.StoredCopy ∧
      (benchInput.attempt 2000 [] .cancel).calibrated = true ∧
      (benchInput.attempt 2000 [] .cancel).cal.cx = 0.5 ∧
      Input.mapStick (benchInput.attempt 2000 [] .cancel).cal 0 0 = (-0.5, 0) ∧
      ¬ Input.Undone benchInput (benchInput.attempt 2000 [] .cancel) := by
  refine ⟨?_, ?_, ?_, ?_, ?_⟩
  · exact ⟨rfl, rfl⟩
  · decide +kernel
  · decide +kernel
  · decide +kernel
  · intro hundone
    have hcx := congrArg Calibration.cx hundone.cal
    revert hcx
    decide +kernel

end KartFirmware

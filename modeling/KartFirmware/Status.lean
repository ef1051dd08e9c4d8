import KartFirmware.Input

/-!
# The published status

`KartStatus` and the three ways to get at it: `statusPublish`, by the control
loop, and `statusSnapshot` and `statusTrySnapshot`, which copy it under the
mutex.  A snapshot that waits for the mutex is the status itself; one with a zero
timeout fails when another task holds it.  The battery of the gamepad, which
`Input` leaves out, is left out here too.
-/

namespace KartFirmware

structure KartStatus (F : Type) where
  state : State
  stop : Stop
  fwd : F
  turn : F
  btnStart : Bool
  btnDrive : Bool
  outL : F
  outR : F
  brakeMode : BrakeMode
  arming : Bool
  estop : Bool
  padConn : Bool
  padX : F
  padY : F
  padCx : F
  padCy : F
  padZl : F
  padZr : F
  padRx2 : F
  padRy2 : F
  padBtns : Nat

variable {F : Type} [CFloat F]

/-- The status before the first tick. -/
def KartStatus.initial : KartStatus F where
  state := .lockout
  stop := .none
  fwd := 0
  turn := 0
  btnStart := false
  btnDrive := false
  outL := 0
  outR := 0
  brakeMode := .dynamic
  arming := false
  estop := false
  padConn := false
  padX := 0
  padY := 0
  padCx := 0
  padCy := 0
  padZl := 0
  padZr := 0
  padRx2 := 0
  padRy2 := 0
  padBtns := 0

/-- `statusTrySnapshot`: nothing if the mutex is busy. -/
def statusTrySnapshot (st : KartStatus F) (busy : Bool) : Option (KartStatus F) :=
  if busy then none else some st

end KartFirmware

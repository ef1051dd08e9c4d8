import KartFirmware.Arming
import KartFirmware.Controller

/-!
# Collecting the extremes of the stick

A tick that runs during a collection finds the gamepad not calibrated, so it disarms
and brakes, and it hands axes of 0 to the core (`EspController.tickOnce_collecting`).
-/

set_option linter.unusedSectionVars false

namespace KartFirmware

variable {F : Type} [CFloat F] [CSqrt F]

theorem stopCause_of_not_calibrated {i : CtrlInputs F} (h : i.pad.calibrated = false) :
    stopCause i ≠ .none := by
  intro hfree
  have hall := stopCause_none_iff.mp hfree
  simp [h] at hall

namespace Input

variable {s : Input F}

theorem calibrated_of_collecting (h : s.calState = 1) : s.calibrated = false := by
  rw [calibrated, h]
  simp

theorem get_axes_of_collecting (h : s.calState = 1) : s.get.x = 0 ∧ s.get.y = 0 := by
  unfold get
  cases s.connected with
  | false => exact ⟨rfl, rfl⟩
  | true =>
    simp only [h]
    simp

end Input

namespace EspController

/-- A tick that finds or leaves the kart unarmed where `can_drive` is computed publishes it
so, and brakes. -/
theorem tickOnce_unarmed (e : EspController F) {i : EspIn F}
    (harm : (e.ctrl.loop.arm i.cfg i.tickIn.inputs).armed = false) :
    (e.tickOnce i).2.status.arming = false ∧ (e.tickOnce i).2.out.dynBrake = true := by
  have hdrive := drive_disarmed _ i.cfg i.tickIn.inputs harm
  constructor
  · have hlast : (((e.ctrl.loop.arm i.cfg i.tickIn.inputs).drive i.cfg i.tickIn.inputs).1.brakeReset
        ((e.ctrl.loop.arm i.cfg i.tickIn.inputs).drive i.cfg i.tickIn.inputs).2.mode |>.inactivity
          i.cfg i.tickIn.inputs).armed = false := by
      rw [inactivity_armed, brakeReset_armed, drive_armed, harm, Bool.false_and]
    exact hlast
  · have hmode : ((e.ctrl.loop.arm i.cfg i.tickIn.inputs).drive i.cfg i.tickIn.inputs).2.mode =
        .dynamic := by rw [hdrive, DriveResult.brake_mode]
    exact decide_eq_true hmode

/-- A tick during a collection disarms, brakes, and has seen no stick. -/
theorem tickOnce_collecting (e : EspController F) {i : EspIn F} (h : i.input.calState = 1) :
    (e.tickOnce i).2.status.arming = false ∧ (e.tickOnce i).2.out.dynBrake = true ∧
      i.input.padInputs.x = 0 ∧ i.input.padInputs.y = 0 := by
  have hstop : stopCause i.tickIn.inputs ≠ .none :=
    stopCause_of_not_calibrated (Input.calibrated_of_collecting h)
  have harm : (e.ctrl.loop.arm i.cfg i.tickIn.inputs).armed = false := by
    rw [arm_armed, decide_eq_false hstop, Bool.false_and]
  obtain ⟨harming, hbrake⟩ := e.tickOnce_unarmed harm
  exact ⟨harming, hbrake, Input.get_axes_of_collecting h⟩

end EspController

end KartFirmware

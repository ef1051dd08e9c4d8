import KartFirmware.Vehicle
import KartFirmware.SquareMap

/-!
# Two measures of a rollover

The simulator says in two ways that the kart rolls over: a wheel lifts (`liftSide`), which
is a state of the roll integrator, and the margin against the loaded edge is negative
(`tipMargin`), which is a formula of the moment.  Over the real numbers they first show up
in the same step.

A wheel that is down lifts at the end of a step exactly when the margin is negative there
(`liftOff_ne_zero_iff`), and it does not fall back in the step that lifts it, since the roll
starts from rest and its first acceleration is outward (`rollAcc_pos`).  What happens with
the wheel up, where it may fall back and lift again, does not matter to the first time.
-/

set_option linter.unusedSectionVars false

namespace KartFirmware

namespace sim

/-! ### The literals -/

theorem real_ofInt (n : Int) : (CFloat.ofInt n : ℝ) = n := rfl

theorem real_zero : (CFloat.ofInt 0 : ℝ) = 0 := Int.cast_zero

namespace VehicleParams

/-- A kart that stands: the center of gravity is above the ground and within the edges. -/
structure Stands (p : VehicleParams ℝ) : Prop where
  hcg : 0 < p.hcgM
  left : 0 < p.aTipLeft
  right : 0 < p.aTipRight

end VehicleParams

namespace Vehicle

/-- The limit of the side that a lift by `lift` loads. -/
noncomputable def limit (p : VehicleParams ℝ) (lift : Int) : ℝ :=
  if 0 < lift then p.aTipLeft else p.aTipRight

theorem limit_eq (p : VehicleParams ℝ) (lift : Int) :
    limit p lift = G_MPS2 * edge p lift / p.hcgM := by
  unfold limit edge
  split_ifs <;> rfl

variable {s : Vehicle ℝ}

theorem tipMargin_real (s : Vehicle ℝ) :
    s.tipMargin = (if 0 ≤ s.aLat then s.p.aTipLeft else s.p.aTipRight) - |s.aLat| := by
  rw [← real_zero]
  rfl

theorem liftOff_real (s : Vehicle ℝ) :
    s.liftOff = if s.p.aTipLeft < s.aLat then 1 else if s.p.aTipRight < -s.aLat then -1 else 0 :=
  rfl

/-- The side that lifts is the one whose limit is exceeded. -/
theorem limit_lt_of_liftOff (hlift : s.liftOff ≠ 0) :
    limit s.p s.liftOff < (s.liftOff : ℝ) * s.aLat := by
  rw [liftOff_real] at hlift ⊢
  split_ifs at hlift ⊢ with hleft hright
  · rw [limit, if_pos one_pos, Int.cast_one, one_mul]
    exact hleft
  · rw [limit, if_neg (by decide), Int.cast_neg, Int.cast_one, neg_one_mul]
    exact hright
  · exact absurd rfl hlift

/-- A wheel that is down is about to lift exactly when the margin is negative. -/
theorem liftOff_ne_zero_iff (hp : s.p.Stands) : s.liftOff ≠ 0 ↔ s.tipMargin < 0 := by
  have hl := hp.left
  have hr := hp.right
  rw [liftOff_real, tipMargin_real]
  rcases le_or_gt 0 s.aLat with hal | hal
  · -- turning right, or straight on: only the left edge can be exceeded
    rw [if_pos hal, abs_of_nonneg hal, sub_neg]
    split_ifs with hleft hright
    · exact iff_of_true one_ne_zero hleft
    · linarith
    · exact iff_of_false (fun h => h rfl) hleft
  · rw [if_neg (not_le.mpr hal), abs_of_neg hal, sub_neg, if_neg (by linarith)]
    split_ifs with hright
    · exact iff_of_true (by decide) hright
    · exact iff_of_false (fun h => h rfl) hright

/-! ### The first swing -/

section Trig

variable [CTrig ℝ] [CSqrt ℝ]

/-- From the ground, beyond the limit, the roll accelerates outward. -/
theorem rollAcc_pos (hcos : CTrig.cos (0 : ℝ) = 1) (hsin : CTrig.sin (0 : ℝ) = 0)
    {p : VehicleParams ℝ} {lift : Int} {al : ℝ} (hh : 0 < p.hcgM)
    (hlimit : limit p lift < lift * al) : 0 < rollAcc p lift al 0 := by
  have hacc : rollAcc p lift al 0 =
      ((lift : ℝ) * al * (p.hcgM * CTrig.cos (0 : ℝ) + edge p lift * CTrig.sin (0 : ℝ)) -
          G_MPS2 * (edge p lift * CTrig.cos (0 : ℝ) - p.hcgM * CTrig.sin (0 : ℝ))) /
        (1.3 * (edge p lift * edge p lift + p.hcgM * p.hcgM)) := rfl
  have hinertia : 0 < 1.3 * (edge p lift * edge p lift + p.hcgM * p.hcgM) := by
    have hsquare : 0 < p.hcgM * p.hcgM := mul_pos hh hh
    have hedge : 0 ≤ edge p lift * edge p lift := mul_self_nonneg _
    have hsum : 0 < edge p lift * edge p lift + p.hcgM * p.hcgM := by linarith
    exact mul_pos (by norm_num) hsum
  rw [hacc, hcos, hsin]
  apply div_pos _ hinertia
  rw [limit_eq, div_lt_iff₀ hh] at hlimit
  linarith

/-- The angle on the lifted side after a swing. -/
noncomputable def swingAngle (s : Vehicle ℝ) (lift : Int) (dt : ℝ) : ℝ :=
  lift * s.roll + (s.rollrate + rollAcc s.p lift s.aLat (lift * s.roll) * dt) * dt

theorem swing_real (s : Vehicle ℝ) (lift : Int) (dt : ℝ) :
    s.swing lift dt =
      if s.swingAngle lift dt ≤ 0 then { s with roll := 0, rollrate := 0, lift := 0 }
      else
        { s with
          lift := lift
          rollrate := s.rollrate + rollAcc s.p lift s.aLat (lift * s.roll) * dt
          tipped := s.tipped ||
            decide (CTrig.atan2 (edge s.p lift) s.p.hcgM ≤ s.swingAngle lift dt)
          roll := lift * s.swingAngle lift dt } := by
  simp only [← real_zero]
  rfl

/-- With the wheels down the roll is at rest and the kart is not tipped. -/
def Rest (s : Vehicle ℝ) : Prop := s.lift = 0 → s.roll = 0 ∧ s.rollrate = 0 ∧ s.tipped = false

theorem Rest.swing (htipped : s.tipped = false) {lift : Int} (hlift : lift ≠ 0) (dt : ℝ) :
    (s.swing lift dt).Rest := by
  rw [swing_real]
  split_ifs
  · exact fun _ => ⟨rfl, rfl, htipped⟩
  · exact fun hzero => absurd hzero hlift

/-- The wheel that lifts off is still up at the end of the step. -/
theorem swing_liftOff (hcos : CTrig.cos (0 : ℝ) = 1) (hsin : CTrig.sin (0 : ℝ) = 0)
    (hh : 0 < s.p.hcgM) (hroll : s.roll = 0) (hrate : s.rollrate = 0) (hlift : s.liftOff ≠ 0)
    {dt : ℝ} (hdt : 0 < dt) : (s.swing s.liftOff dt).lift = s.liftOff := by
  have hacc : 0 < rollAcc s.p s.liftOff s.aLat 0 :=
    rollAcc_pos hcos hsin hh (limit_lt_of_liftOff hlift)
  have hangle : 0 < s.swingAngle s.liftOff dt := by
    rw [swingAngle, hroll, hrate, mul_zero, zero_add, zero_add]
    exact mul_pos (mul_pos hacc hdt) hdt
  rw [swing_real, if_neg (not_le.mpr hangle)]

theorem stepRoll_of_down {dt : ℝ} (h : s.lift = 0) :
    s.stepRoll dt = if s.liftOff = 0 then s else s.swing s.liftOff dt := if_pos h

/-- All that the roll can do is a swing, on one side or the other. -/
theorem stepRoll_cases (s : Vehicle ℝ) (dt : ℝ) :
    s.stepRoll dt = s ∨ ∃ lift ≠ 0, s.stepRoll dt = s.swing lift dt := by
  unfold stepRoll
  split_ifs with hdown hoff
  · exact .inl rfl
  · exact .inr ⟨_, hoff, rfl⟩
  · exact .inr ⟨_, hdown, rfl⟩

theorem Rest.stepRoll (h : s.Rest) (htipped : s.tipped = false) (dt : ℝ) :
    (s.stepRoll dt).Rest := by
  rcases stepRoll_cases s dt with hsame | ⟨lift, hlift, hswing⟩
  · rwa [hsame]
  · rw [hswing]
    exact Rest.swing htipped hlift dt

/-- The roll does not move the kart: the margin stays what it was. -/
theorem stepRoll_frame (s : Vehicle ℝ) (dt : ℝ) :
    (s.stepRoll dt).p = s.p ∧ (s.stepRoll dt).tipMargin = s.tipMargin := by
  rcases stepRoll_cases s dt with hsame | ⟨lift, -, hswing⟩
  · simp [hsame]
  · rw [hswing, swing_real]
    split_ifs <;> exact ⟨rfl, rfl⟩

/-- From wheels down, the roll lifts one exactly when the margin is negative. -/
theorem stepRoll_lift_iff (hcos : CTrig.cos (0 : ℝ) = 1) (hsin : CTrig.sin (0 : ℝ) = 0)
    (hp : s.p.Stands) (hrest : s.Rest) (hdown : s.lift = 0) {dt : ℝ} (hdt : 0 < dt) :
    (s.stepRoll dt).lift ≠ 0 ↔ (s.stepRoll dt).tipMargin < 0 := by
  obtain ⟨hroll, hrate, -⟩ := hrest hdown
  rw [(stepRoll_frame s dt).2, ← liftOff_ne_zero_iff hp, stepRoll_of_down hdown]
  by_cases hoff : s.liftOff = 0
  · rw [if_pos hoff]
    exact iff_of_false (fun h => h hdown) (fun h => h hoff)
  · rw [if_neg hoff, swing_liftOff hcos hsin hp.hcg hroll hrate hoff hdt]

/-! ### On flat ground -/

/-- The kart stands on ground that is flat, and has not left it. -/
structure Flat (s : Vehicle ℝ) : Prop where
  ground : s.groundFn = none
  z : s.z = 0
  vz : s.vz = 0
  zgPrev : s.zgPrev = 0
  air : s.air = false

/-- The vertical speed that the ground imposes, which the speed of the kart bounds. -/
noncomputable def groundSpeed (s : Vehicle ℝ) (zg dt : ℝ) : ℝ :=
  let vzMax := |s.v| + 0.5
  let vzG := (zg - s.zgPrev) / dt
  let vzG := if vzMax < vzG then vzMax else vzG
  if vzG < -vzMax then -vzMax else vzG

theorem vertical_real (s : Vehicle ℝ) (dt : ℝ) :
    s.vertical dt =
      if s.settle.z + s.settle.vz * dt ≤ s.groundHere + 1e-4 then
        { s.settle with
          air := false
          vz := s.settle.groundSpeed s.groundHere dt
          z := s.groundHere
          zgPrev := s.groundHere }
      else
        { s.settle with
          air := true
          z := s.settle.z + s.settle.vz * dt
          vz := s.settle.vz - G_MPS2 * dt
          zgPrev := s.groundHere } := rfl

theorem groundSpeed_rest (hprev : s.zgPrev = 0) (dt : ℝ) : s.groundSpeed 0 dt = 0 := by
  have hmax : 0 < |s.v| + 0.5 := add_pos_of_nonneg_of_pos (abs_nonneg _) (by norm_num)
  simp only [groundSpeed, hprev, sub_self, zero_div]
  rw [if_neg (not_lt.mpr hmax.le), if_neg (by linarith)]

theorem Flat.groundHere (h : s.Flat) : s.groundHere = 0 := by
  rw [Vehicle.groundHere, h.ground]
  exact real_zero

theorem Flat.settle (h : s.Flat) : s.settle.Flat := by
  unfold Vehicle.settle
  split_ifs
  · exact h
  · exact ⟨h.ground, h.groundHere, h.vz, h.groundHere, h.air⟩

theorem Flat.vertical (h : s.Flat) (dt : ℝ) : (s.vertical dt).Flat := by
  have hdown : s.settle.z + s.settle.vz * dt ≤ s.groundHere + 1e-4 := by
    rw [h.settle.z, h.settle.vz, h.groundHere, zero_mul]
    norm_num
  rw [vertical_real, if_pos hdown, h.groundHere]
  exact ⟨h.settle.ground, rfl, groundSpeed_rest h.settle.zgPrev dt, rfl, rfl⟩

theorem integrate_eq (s : Vehicle ℝ) (dt : ℝ) :
    ∃ v x y, s.integrate dt = { s with v := v, x := x, y := y } := by
  unfold integrate
  dsimp only
  split
  · exact ⟨_, _, _, rfl⟩
  · exact ⟨_, _, _, rfl⟩

theorem Flat.integrate (h : s.Flat) (dt : ℝ) : (s.integrate dt).Flat := by
  obtain ⟨v, x, y, heq⟩ := integrate_eq s dt
  rw [heq]
  exact ⟨h.ground, h.z, h.vz, h.zgPrev, h.air⟩

theorem Flat.stepPlanar (h : s.Flat) (c : StepCmd ℝ) : (s.stepPlanar c).Flat := by
  have htraction : (s.traction c).Flat := ⟨h.ground, h.z, h.vz, h.zgPrev, h.air⟩
  have hmoved := htraction.integrate c.dt
  have hbattery : ((((s.traction c).integrate c.dt).turn c.dt).battery c).Flat :=
    ⟨hmoved.ground, hmoved.z, hmoved.vz, hmoved.zgPrev, hmoved.air⟩
  have hvertical := hbattery.vertical c.dt
  exact ⟨hvertical.ground, hvertical.z, hvertical.vz, hvertical.zgPrev, hvertical.air⟩

theorem Flat.stepRoll (h : s.Flat) (dt : ℝ) : (s.stepRoll dt).Flat := by
  rcases stepRoll_cases s dt with hsame | ⟨lift, -, hswing⟩
  · rwa [hsame]
  · rw [hswing, swing_real]
    split_ifs <;> exact ⟨h.ground, h.z, h.vz, h.zgPrev, h.air⟩

theorem Flat.stepTipped (h : s.Flat) (dt : ℝ) : (s.stepTipped dt).Flat := by
  have hslid : (s.slide dt).Flat := ⟨h.ground, h.z, h.vz, h.zgPrev, h.air⟩
  have hmoved := hslid.integrate dt
  exact ⟨hmoved.ground, hmoved.z, hmoved.vz, hmoved.zgPrev, hmoved.air⟩

/-! ### One step -/

/-- What the planar part of a step leaves alone. -/
structure SameRoll (s s' : Vehicle ℝ) : Prop where
  p : s'.p = s.p
  lift : s'.lift = s.lift
  roll : s'.roll = s.roll
  rollrate : s'.rollrate = s.rollrate
  tipped : s'.tipped = s.tipped

theorem SameRoll.trans {s₁ s₂ s₃ : Vehicle ℝ} (h : SameRoll s₁ s₂) (h' : SameRoll s₂ s₃) :
    SameRoll s₁ s₃ :=
  ⟨h'.p.trans h.p, h'.lift.trans h.lift, h'.roll.trans h.roll, h'.rollrate.trans h.rollrate,
    h'.tipped.trans h.tipped⟩

theorem integrate_sameRoll (s : Vehicle ℝ) (dt : ℝ) : SameRoll s (s.integrate dt) := by
  obtain ⟨v, x, y, heq⟩ := integrate_eq s dt
  rw [heq]
  exact ⟨rfl, rfl, rfl, rfl, rfl⟩

theorem vertical_sameRoll (s : Vehicle ℝ) (dt : ℝ) : SameRoll s (s.vertical dt) := by
  have hsettle : SameRoll s s.settle := by
    unfold settle
    split_ifs <;> exact ⟨rfl, rfl, rfl, rfl, rfl⟩
  refine hsettle.trans ?_
  rw [vertical_real]
  split_ifs <;> exact ⟨rfl, rfl, rfl, rfl, rfl⟩

theorem stepPlanar_sameRoll (s : Vehicle ℝ) (c : StepCmd ℝ) : SameRoll s (s.stepPlanar c) := by
  have htraction : SameRoll s (s.traction c) := ⟨rfl, rfl, rfl, rfl, rfl⟩
  have hmoved := htraction.trans (integrate_sameRoll _ c.dt)
  have hbattery : SameRoll s ((((s.traction c).integrate c.dt).turn c.dt).battery c) :=
    ⟨hmoved.p, hmoved.lift, hmoved.roll, hmoved.rollrate, hmoved.tipped⟩
  have hvertical := hbattery.trans (vertical_sameRoll _ c.dt)
  exact ⟨hvertical.p, hvertical.lift, hvertical.roll, hvertical.rollrate, hvertical.tipped⟩

/-- What holds before every step of a run on flat ground. -/
structure OnGround (p : VehicleParams ℝ) (s : Vehicle ℝ) : Prop where
  params : s.p = p
  flat : s.Flat
  rest : s.Rest

variable {p : VehicleParams ℝ}

theorem OnGround.lifted (h : OnGround p s) (htipped : s.tipped = true) : s.lift ≠ 0 := by
  intro hdown
  rw [(h.rest hdown).2.2] at htipped
  exact absurd htipped (by decide)

theorem OnGround.stepPlanar (h : OnGround p s) (c : StepCmd ℝ) : OnGround p (s.stepPlanar c) := by
  have hsame := stepPlanar_sameRoll s c
  refine ⟨hsame.p.trans h.params, h.flat.stepPlanar c, ?_⟩
  intro hdown
  rw [hsame.roll, hsame.rollrate, hsame.tipped]
  exact h.rest (hsame.lift ▸ hdown)

/-- On flat ground a step ends with the roll. -/
theorem step_of_flat (h : s.Flat) (htipped : s.tipped = false) (c : StepCmd ℝ) :
    s.step c = (s.stepPlanar c).stepRoll c.dt := by
  have hair : (s.stepPlanar c).air = false := (h.stepPlanar c).air
  rw [step, if_neg (by simp [htipped])]
  exact if_neg (by simp [hair])

theorem OnGround.step (h : OnGround p s) (c : StepCmd ℝ) : OnGround p (s.step c) := by
  cases htipped : s.tipped with
  | true =>
    have hstep : s.step c = s.stepTipped c.dt := if_pos htipped
    have hmoved := integrate_sameRoll (s.slide c.dt) c.dt
    rw [hstep]
    refine ⟨hmoved.p.trans h.params, h.flat.stepTipped c.dt, fun hdown => ?_⟩
    -- the wheel that tipped the kart stays up
    exact absurd (hmoved.lift.symm.trans hdown) (h.lifted htipped)
  | false =>
    have hplanar := h.stepPlanar c
    have hnot : (s.stepPlanar c).tipped = false :=
      (stepPlanar_sameRoll s c).tipped.trans htipped
    rw [step_of_flat h.flat htipped]
    exact ⟨(stepRoll_frame _ c.dt).1.trans hplanar.params, hplanar.flat.stepRoll c.dt,
      hplanar.rest.stepRoll hnot c.dt⟩

/-- A step from wheels down ends with a wheel up exactly when it ends with a negative
margin. -/
theorem OnGround.step_lift_iff (hcos : CTrig.cos (0 : ℝ) = 1) (hsin : CTrig.sin (0 : ℝ) = 0)
    (h : OnGround p s) (hp : p.Stands) (hdown : s.lift = 0) {c : StepCmd ℝ} (hdt : 0 < c.dt) :
    (s.step c).lift ≠ 0 ↔ (s.step c).tipMargin < 0 := by
  have hplanar := h.stepPlanar c
  rw [step_of_flat h.flat (h.rest hdown).2.2]
  exact stepRoll_lift_iff hcos hsin (by rwa [hplanar.params]) hplanar.rest
    ((stepPlanar_sameRoll s c).lift.trans hdown) hdt

/-! ### Runs -/

/-- In the first `n` steps of a run, a wheel has been up exactly when the margin has been
negative, and a tipped kart has had both. -/
def MeasuresAgree (run : Nat → Vehicle ℝ) (n : Nat) : Prop :=
  ((∃ k < n, (run (k + 1)).liftSide ≠ 0) ↔ ∃ k < n, (run (k + 1)).tipMargin < 0) ∧
    ((∃ k < n, (run (k + 1)).tipped = true) →
      (∃ k < n, (run (k + 1)).liftSide ≠ 0) ∧ ∃ k < n, (run (k + 1)).tipMargin < 0)

theorem OnGround.of_fresh (hfresh : s.Fresh) (hground : s.groundFn = none) : OnGround s.p s := by
  obtain ⟨q, hq⟩ := hfresh
  refine ⟨rfl, ⟨hground, ?_, ?_, ?_, ?_⟩, fun _ => ⟨?_, ?_, ?_⟩⟩ <;> rw [hq]
  · exact real_zero
  · exact real_zero
  · exact real_zero
  · rfl
  · exact real_zero
  · exact real_zero
  · rfl

section Runs

variable {w : Nat → StepCmd ℝ}

theorem onGround_stateAt (hfresh : s.Fresh) (hground : s.groundFn = none) (n : Nat) :
    OnGround s.p ((machine s).stateAt w n) :=
  (machine s).stateAt_induction (fun _ s' => OnGround s.p s') (.of_fresh hfresh hground)
    (fun n _ h => h.step (w n)) n

/-- In a run on flat ground a wheel has been up exactly when the margin has been negative. -/
theorem lifted_iff_margin (hcos : CTrig.cos (0 : ℝ) = 1) (hsin : CTrig.sin (0 : ℝ) = 0)
    (hfresh : s.Fresh) (hground : s.groundFn = none) (hp : s.p.Stands) (hdt : ∀ n, 0 < (w n).dt)
    (n : Nat) :
    (∃ k < n, ((machine s).stateAt w (k + 1)).liftSide ≠ 0) ↔
      ∃ k < n, ((machine s).stateAt w (k + 1)).tipMargin < 0 := by
  apply (machine s).stateAt_onset (OnGround s.p) (P := fun s' => s'.lift ≠ 0)
    (Q := fun s' => s'.tipMargin < 0) (onGround_stateAt hfresh hground)
  · exact not_not.mpr hfresh.lift
  · intro n s' hs hdown
    exact hs.step_lift_iff hcos hsin hp (not_not.mp hdown) (hdt n)

/-- A kart that is tipped has a wheel up. -/
theorem tipped_lifted (hfresh : s.Fresh) (hground : s.groundFn = none) {n : Nat}
    (h : ((machine s).stateAt w n).tipped = true) : ((machine s).stateAt w n).liftSide ≠ 0 :=
  (onGround_stateAt hfresh hground n).lifted h

theorem measuresAgree (hcos : CTrig.cos (0 : ℝ) = 1) (hsin : CTrig.sin (0 : ℝ) = 0)
    (hfresh : s.Fresh) (hground : s.groundFn = none) (hp : s.p.Stands) (hdt : ∀ n, 0 < (w n).dt)
    (n : Nat) : MeasuresAgree ((machine s).stateAt w) n := by
  have hiff := lifted_iff_margin hcos hsin hfresh hground hp hdt n
  refine ⟨hiff, ?_⟩
  rintro ⟨k, hk, htipped⟩
  have hlifted : ∃ k < n, ((machine s).stateAt w (k + 1)).liftSide ≠ 0 :=
    ⟨k, hk, tipped_lifted hfresh hground htipped⟩
  exact ⟨hlifted, hiff.mp hlifted⟩

end Runs

end Trig

end Vehicle

end sim

end KartFirmware

import KartFirmware.Arming
import KartFirmware.Controller

/-!
# Haptic feedback over runs

The core with the rumble advisor behind it, and which vibration each tick gives.  The
advisor remembers the armed flag and the B button of the tick before, so two of its cues
are edges; the third repeats, and `blockUs` is the time of the last one
(`blockAt_latest`).

An arming tick gives no other cue, since whoever is armed can drive.  An e-stop tick
gives the third cue in place of its own when the stick is pushed and the last repeat is
old enough.
-/

set_option linter.unusedSectionVars false

namespace KartFirmware

variable {F : Type} [CFloat F]

/-! ### The advisor behind the core -/

def RumbleAdvisor.new : RumbleAdvisor where
  armedPrev := false
  estopPrev := false
  blockUs := 0

/-- Every tick is followed by `update`, on the telemetry and the gamepad of the tick. -/
def hapticMachine (cfg₀ : KartConfig F) :
    Mealy.Machine (KartController F × RumbleAdvisor) (TickIn F) (TickOut F × RumbleCmd) where
  init := (.new cfg₀, .new)
  step s e :=
    let r := (KartController.machine cfg₀).step s.1 e
    let a := s.2.update r.2.tel e.pad e.nowUs
    ((r.1, a.1), (r.2, a.2))

theorem haptic_lockstep (cfg₀ : KartConfig F) :
    Mealy.Lockstep (hapticMachine cfg₀) (KartController.machine cfg₀) Eq
      (fun s k => s.1 = k) (fun o t => o.1 = t) where
  init := rfl
  step := by
    rintro s _ e _ rfl rfl
    exact ⟨rfl, rfl⟩

section Runs

variable (cfg₀ : KartConfig F) (w : Nat → TickIn F)

def advisorAt (n : Nat) : RumbleAdvisor := ((hapticMachine cfg₀).stateAt w n).2

/-- The vibration of tick `n`. -/
def cueAt (n : Nat) : RumbleCmd := ((hapticMachine cfg₀).outAt w n).2

theorem cueAt_update (n : Nat) :
    cueAt cfg₀ w n =
      ((advisorAt cfg₀ w n).update (tickAt cfg₀ w n).tel (w n).pad (w n).nowUs).2 := by
  have htick : ((hapticMachine cfg₀).outAt w n).1 = tickAt cfg₀ w n :=
    (haptic_lockstep cfg₀).outAt (fun _ => rfl) n
  rw [← htick]
  rfl

theorem advisorAt_succ (n : Nat) :
    advisorAt cfg₀ w (n + 1) =
      ((advisorAt cfg₀ w n).update (tickAt cfg₀ w n).tel (w n).pad (w n).nowUs).1 := by
  have htick : ((hapticMachine cfg₀).outAt w n).1 = tickAt cfg₀ w n :=
    (haptic_lockstep cfg₀).outAt (fun _ => rfl) n
  rw [← htick]
  rfl

/-! ### Edges -/

/-- A signal that is false before tick 0 rises on tick `n`. -/
def Rises (b : Nat → Bool) (n : Nat) : Prop := b n = true ∧ ∀ m, n = m + 1 → b m = false

def armedFlag (n : Nat) : Bool := (tickAt cfg₀ w n).tel.armed
def estopButton (n : Nat) : Bool := (w n).pad.estop

/-- What was a tick ago, for a memory that starts at false. -/
theorem rises_iff (b prev : Nat → Bool) (hzero : prev 0 = false)
    (hsucc : ∀ n, prev (n + 1) = b n) (n : Nat) :
    (b n && !prev n) = true ↔ Rises b n := by
  rw [Bool.and_eq_true, Bool.not_eq_true', Rises]
  refine and_congr_right fun _ => ?_
  cases n with
  | zero => exact iff_of_true hzero fun m hm => absurd hm (Nat.succ_ne_zero m).symm
  | succ n =>
    rw [hsucc]
    constructor
    · rintro hprev m hm
      exact Nat.succ.inj hm ▸ hprev
    · exact fun h => h n rfl

theorem arms_iff (n : Nat) :
    ((tickAt cfg₀ w n).tel.armed && !(advisorAt cfg₀ w n).armedPrev) = true ↔
      Rises (armedFlag cfg₀ w) n := by
  refine rises_iff (armedFlag cfg₀ w) (fun n => (advisorAt cfg₀ w n).armedPrev) rfl (fun n => ?_) n
  rw [advisorAt_succ]
  rfl

theorem presses_iff (n : Nat) :
    ((w n).pad.estop && !(advisorAt cfg₀ w n).estopPrev) = true ↔ Rises (estopButton w) n := by
  refine rises_iff (estopButton w) (fun n => (advisorAt cfg₀ w n).estopPrev) rfl (fun n => ?_) n
  rw [advisorAt_succ]
  rfl

/-! ### What the core publishes -/

variable {cfg₀ w}

/-- Whoever is published as armed can drive, and B is not pressed. -/
theorem armedFlag_run {n : Nat} (h : armedFlag cfg₀ w n = true) :
    (tickAt cfg₀ w n).tel.state = .run ∧ (w n).pad.estop = false := by
  have harmed : (loopAt cfg₀ w (n + 1)).armed = true := h
  rw [loopAt_succ_armed, Bool.and_eq_true] at harmed
  have hstop := (armAt_armed_cases harmed.1).1
  refine ⟨?_, (stopCause_none_iff.mp hstop).2.2.1⟩
  rw [tickAt_tel]
  change ((armAt cfg₀ w n).drive (w n).cfg (w n).inputs).2.state = .run
  rw [drive_state, if_pos harmed.1]

/-- With B pressed the kart cannot drive. -/
theorem estop_lockout {n : Nat} (h : (w n).pad.estop = true) :
    (tickAt cfg₀ w n).tel.state ≠ .run := by
  rw [tickAt_tel]
  change ((armAt cfg₀ w n).drive (w n).cfg (w n).inputs).2.state ≠ .run
  rw [drive_state]
  split_ifs with harmed
  · have hfree := (stopCause_none_iff.mp (armAt_armed_cases harmed).1).2.2.1
    exact absurd (h.symm.trans hfree) (by simp)
  · simp

end Runs

/-! ### The three cues -/

def armCue : RumbleCmd := ⟨true, 90, 160, 220⟩
def estopCue : RumbleCmd := ⟨true, 255, 255, 450⟩
def blockCue : RumbleCmd := ⟨true, 220, 220, 250⟩

section Cues

variable (cfg₀ : KartConfig F) (w : Nat → TickIn F)

/-- The stick is pushed on tick `n`, and the last repeat is old enough. -/
def PushDue (n : Nat) : Prop :=
  pushing (w n).pad = true ∧
    (w n).nowUs - (advisorAt cfg₀ w n).blockUs > hw.RUMBLE_BLOCK_INTERVAL_US

/-- The third cue is given. -/
def Blocked (n : Nat) : Prop := PushDue cfg₀ w n ∧ (tickAt cfg₀ w n).tel.state ≠ .run

instance (n : Nat) : Decidable (PushDue cfg₀ w n) := inferInstanceAs (Decidable (_ ∧ _))
instance (n : Nat) : Decidable (Blocked cfg₀ w n) := inferInstanceAs (Decidable (_ ∧ _))

theorem blocked_iff (n : Nat) :
    (pushing (w n).pad && decide ((tickAt cfg₀ w n).tel.state ≠ .run) &&
      decide ((w n).nowUs - (advisorAt cfg₀ w n).blockUs > hw.RUMBLE_BLOCK_INTERVAL_US)) = true ↔
      Blocked cfg₀ w n := by
  rw [Bool.and_eq_true, Bool.and_eq_true, decide_eq_true_iff, decide_eq_true_iff, and_right_comm]
  rfl

/-- Which vibration a tick gives: the last one that applies. -/
theorem cueAt_cases (n : Nat) :
    Blocked cfg₀ w n ∧ cueAt cfg₀ w n = blockCue ∨
      ¬ Blocked cfg₀ w n ∧
        (Rises (estopButton w) n ∧ cueAt cfg₀ w n = estopCue ∨
          ¬ Rises (estopButton w) n ∧
            (Rises (armedFlag cfg₀ w) n ∧ cueAt cfg₀ w n = armCue ∨
              ¬ Rises (armedFlag cfg₀ w) n ∧ (cueAt cfg₀ w n).active = false)) := by
  rw [cueAt_update, ← blocked_iff, ← presses_iff cfg₀, ← arms_iff]
  unfold RumbleAdvisor.update
  dsimp only
  split_ifs with hblocked hestop harm
  · exact Or.inl ⟨hblocked, rfl⟩
  · exact Or.inr ⟨hblocked, Or.inl ⟨hestop, rfl⟩⟩
  · exact Or.inr ⟨hblocked, Or.inr ⟨hestop, Or.inl ⟨harm, rfl⟩⟩⟩
  · exact Or.inr ⟨hblocked, Or.inr ⟨hestop, Or.inr ⟨harm, rfl⟩⟩⟩

theorem advisorAt_succ_blockUs (n : Nat) :
    (advisorAt cfg₀ w (n + 1)).blockUs =
      if Blocked cfg₀ w n then (w n).nowUs else (advisorAt cfg₀ w n).blockUs := by
  rw [advisorAt_succ]
  unfold RumbleAdvisor.update
  dsimp only
  simp only [blocked_iff]

variable {cfg₀ w}

/-- No cue of the third kind is later than `blockUs` says. -/
theorem blockAt_latest {m n : Nat} (hmn : m < n) (hm : Blocked cfg₀ w m) :
    (w m).nowUs ≤ (advisorAt cfg₀ w n).blockUs := by
  induction n with
  | zero => exact absurd hmn (Nat.not_lt_zero m)
  | succ n ih =>
    rw [advisorAt_succ_blockUs]
    rcases Nat.lt_succ_iff_lt_or_eq.mp hmn with hlt | rfl
    · have hle := ih hlt
      split_ifs with hn
      · have hlater : (w n).nowUs - (advisorAt cfg₀ w n).blockUs > 800000 := hn.1.2
        omega
      · exact hle
    · rw [if_pos hm]

/-- Two cues of the third kind are more than the interval apart. -/
theorem blocked_apart {m n : Nat} (hmn : m < n) (hm : Blocked cfg₀ w m)
    (hn : Blocked cfg₀ w n) : (w n).nowUs - (w m).nowUs > hw.RUMBLE_BLOCK_INTERVAL_US := by
  have hle := blockAt_latest hmn hm
  have hlater := hn.1.2
  omega

theorem cueAt_blockCue_iff (n : Nat) : cueAt cfg₀ w n = blockCue ↔ Blocked cfg₀ w n := by
  rcases cueAt_cases cfg₀ w n with ⟨hblocked, hcue⟩ | ⟨hfree, hcue⟩
  · exact iff_of_true hcue hblocked
  · refine iff_of_false ?_ hfree
    rcases hcue with ⟨-, hcue⟩ | ⟨-, ⟨-, hcue⟩ | ⟨-, hquiet⟩⟩
    · rw [hcue]
      decide
    · rw [hcue]
      decide
    · intro hcue
      rw [hcue] at hquiet
      exact absurd hquiet (by decide)

/-- An arming tick gives the arming cue. -/
theorem cueAt_arming {n : Nat} (h : Rises (armedFlag cfg₀ w) n) : cueAt cfg₀ w n = armCue := by
  obtain ⟨hrun, hreleased⟩ := armedFlag_run h.1
  rcases cueAt_cases cfg₀ w n with ⟨hblocked, -⟩ | ⟨-, hcue⟩
  · exact absurd hrun hblocked.2
  · rcases hcue with ⟨hpress, -⟩ | ⟨-, ⟨-, hcue⟩ | ⟨hno, -⟩⟩
    · exact absurd (hpress.1.symm.trans hreleased) (by simp)
    · exact hcue
    · exact absurd h hno

/-- An e-stop tick gives the e-stop cue unless the third one is due. -/
theorem cueAt_estop_iff {n : Nat} (h : Rises (estopButton w) n) :
    cueAt cfg₀ w n = estopCue ↔ ¬ PushDue cfg₀ w n := by
  have hlockout : (tickAt cfg₀ w n).tel.state ≠ .run := estop_lockout h.1
  rcases cueAt_cases cfg₀ w n with ⟨hblocked, hcue⟩ | ⟨hfree, hcue⟩
  · refine iff_of_false ?_ (not_not_intro hblocked.1)
    rw [hcue]
    decide
  · refine iff_of_true ?_ fun hdue => hfree ⟨hdue, hlockout⟩
    rcases hcue with ⟨-, hcue⟩ | ⟨hno, -⟩
    · exact hcue
    · exact absurd h hno

/-- Every other vibration is the third cue. -/
theorem cueAt_other {n : Nat} (hactive : (cueAt cfg₀ w n).active = true)
    (harm : ¬ Rises (armedFlag cfg₀ w) n) (hpress : ¬ Rises (estopButton w) n) :
    cueAt cfg₀ w n = blockCue := by
  rcases cueAt_cases cfg₀ w n with ⟨-, hcue⟩ | ⟨-, ⟨hyes, -⟩ | ⟨-, ⟨hyes, -⟩ | ⟨-, hquiet⟩⟩⟩
  · exact hcue
  · exact absurd hyes hpress
  · exact absurd hyes harm
  · exact absurd (hactive.symm.trans hquiet) (by simp)

/-- The third cue is for a driver who pushes the stick of a kart that is not armed. -/
theorem blockCue_pushing {n : Nat} (h : cueAt cfg₀ w n = blockCue) :
    pushing (w n).pad = true ∧ armedFlag cfg₀ w n = false := by
  have hblocked := (cueAt_blockCue_iff n).mp h
  refine ⟨hblocked.1.1, ?_⟩
  by_contra harmed
  rw [Bool.not_eq_false] at harmed
  exact hblocked.2 (armedFlag_run harmed).1

end Cues

/-! ### No cue is swallowed -/

variable (cfg₀ : KartConfig F) (w : Nat → TickIn F)

/-- What the driver is owed in a run. -/
structure CuesKept : Prop where
  arming : ∀ n, Rises (armedFlag cfg₀ w) n → cueAt cfg₀ w n = armCue
  estop : ∀ n, Rises (estopButton w) n → cueAt cfg₀ w n = estopCue
  other : ∀ n, (cueAt cfg₀ w n).active = true → ¬ Rises (armedFlag cfg₀ w) n →
    ¬ Rises (estopButton w) n → cueAt cfg₀ w n = blockCue
  pushed : ∀ n, cueAt cfg₀ w n = blockCue → pushing (w n).pad = true ∧ armedFlag cfg₀ w n = false
  apart : ∀ m n, m < n → cueAt cfg₀ w m = blockCue → cueAt cfg₀ w n = blockCue →
    (w n).nowUs - (w m).nowUs > hw.RUMBLE_BLOCK_INTERVAL_US

/-- **When the haptic feedback is complete.**  A run gives every vibration it owes exactly
when the stick is not pushed with a repeat due on a tick that presses B. -/
theorem cues_kept_iff :
    CuesKept cfg₀ w ↔ ∀ n, Rises (estopButton w) n → ¬ PushDue cfg₀ w n := by
  constructor
  · intro h n hpress
    exact (cueAt_estop_iff hpress).mp (h.estop n hpress)
  · intro h
    refine ⟨fun _ => cueAt_arming, fun n hpress => ?_, fun _ => cueAt_other,
      fun _ => blockCue_pushing, ?_⟩
    · exact (cueAt_estop_iff hpress).mpr (h n hpress)
    · intro m n hmn hm hn
      exact blocked_apart hmn ((cueAt_blockCue_iff m).mp hm) ((cueAt_blockCue_iff n).mp hn)

/-- START held for 0.3 s, a tick of driving, and B pressed with the stick still pushed. -/
def pressWhileSteering : Nat → TickIn Float32
  | 0 => benchTick 1000000 true false 0
  | 1 => benchTick 1300001 true false 0
  | 2 => benchTick 1302001 false true 1
  | n =>
    let e := benchTick (1302001 + 2000 * n) false true 1
    { e with pad := { e.pad with estop := true } }

/-- B stops the kart, and the driver feels the cue of a kart that is not armed. -/
theorem estop_cue_swallowed :
    cueAt benchCfg pressWhileSteering 1 = armCue ∧
      (tickAt benchCfg pressWhileSteering 2).tel.state = .run ∧
      cueAt benchCfg pressWhileSteering 3 = blockCue ∧
      ¬ CuesKept benchCfg pressWhileSteering := by
  have hrun : cueAt benchCfg pressWhileSteering 1 = armCue ∧
      (tickAt benchCfg pressWhileSteering 2).tel.state = .run ∧
      cueAt benchCfg pressWhileSteering 3 = blockCue := by
    decide +kernel
  refine ⟨hrun.1, hrun.2.1, hrun.2.2, fun h => ?_⟩
  have hpress : Rises (estopButton pressWhileSteering) 3 := by
    refine ⟨rfl, fun m hm => ?_⟩
    obtain rfl : m = 2 := by omega
    rfl
  have hcue := h.estop 3 hpress
  rw [hrun.2.2] at hcue
  exact absurd hcue (by decide)

end KartFirmware

import KartFirmware.Arming

/-!
# When the kart is armed

`drive_requires_arming` says what an armed kart has behind it.  Here the published flag is
computed from the inputs: the history of the START button, the Stop causes, the stick and
the clock.

The hold timer and the press latch of the loop are a function of the START button alone.
They pick, of every press, the one tick on which it becomes long (`pressHandled_iff`).  A
long press with a centred stick arms a disarmed kart, and the kart stays armed up to the
first Stop cause, long press or inactivity (`published_armed_iff`).
-/

set_option linter.unusedSectionVars false

namespace KartFirmware

variable {F : Type} [CFloat F]

section History

variable (w : Nat → TickIn F)

/-- The START press that begins on tick `j` becomes long on tick `k`. -/
structure LongPress (j k : Nat) : Prop where
  le : j ≤ k
  begins : BeginsPress w j
  held : HeldFrom w j k
  past : PastHold w j k
  first : ∀ m, j ≤ m → m < k → ¬ PastHold w j m

/-- A is held and the stick is off its rest. -/
def Pushes (n : Nat) : Prop :=
  (w n).pad.drive = true ∧ stickIdle (w n).cfg (w n).pad = false

/-- Nothing disarms a kart that was armed on tick `k`, up to and with tick `n`. -/
structure NothingDisarms (k n : Nat) : Prop where
  noStop : ∀ m, k ≤ m → m ≤ n → stopCause (w m).inputs = .none
  noPress : ∀ j m, k < m → m ≤ n → ¬ LongPress w j m
  active : ∀ m, k ≤ m → m ≤ n → ∃ a, k ≤ a ∧ a ≤ m ∧ (a = k ∨ Pushes w a) ∧
    (w m).nowUs - (w a).nowUs ≤ (w m).cfg.disarmS * 1000000

end History

variable {cfg₀ : KartConfig F} {w : Nat → TickIn F}

/-! ### The long press -/

/-- A press that has become long stays latched while it is held. -/
theorem startLatch_of_pastHold (cfg₀ : KartConfig F) (hclock : ClockOk w)
    (hconfigs : ConfigsOk w) {p n : Nat} (hbegins : BeginsPress w p)
    (hheld : HeldFrom w p (n - 1)) {m : Nat} (hpm : p ≤ m) (hmn : m < n)
    (hpast : PastHold w p m) : (loopAt cfg₀ w n).startLatch = true := by
  induction n generalizing m with
  | zero => exact absurd hmn (Nat.not_lt_zero m)
  | succ n ih =>
    have hstart : (w n).pad.start = true := hheld n (by omega) (Nat.le_refl n)
    have hbefore : ∀ m, p ≤ m → m < n → PastHold w p m → (loopAt cfg₀ w n).startLatch = true :=
      fun m hpm hmn => ih (fun x hpx hxn => hheld x hpx (by omega)) hpm hmn
    rw [loopAt_succ_startLatch, armAt, arm_startLatch, Bool.and_eq_true, Bool.or_eq_true]
    refine ⟨hstart, ?_⟩
    rcases Nat.lt_or_eq_of_le (Nat.le_of_lt_succ hmn) with hlt | rfl
    · exact Or.inl (hbefore m hpm hlt hpast)
    · -- the press is handled on its first long tick
      rcases pastHold_handled cfg₀ hclock hconfigs hpm hbegins hheld hpast with
        hnow | ⟨m', hpm', hlt, hlong⟩
      · exact Or.inr hnow
      · exact Or.inl (hbefore m' hpm' hlt hlong)

theorem LongPress.lt (hconfigs : ConfigsOk w) {j k : Nat} (h : LongPress w j k) : j < k := by
  rcases Nat.lt_or_eq_of_le h.le with hlt | rfl
  · exact hlt
  · have hrange := (hconfigs j).armHoldMs
    have hpast := h.past
    simp only [PastHold] at hpast
    omega

/-- At most one press is held, and it becomes long once. -/
theorem LongPress.unique {j j' k k' : Nat} (h : LongPress w j k) (h' : LongPress w j' k')
    (hlt : k < k') : k < j' := by
  by_contra hle
  have hheld' : HeldFrom w j' k := fun x hx hxk => h'.held x hx (by omega)
  have hpress : Pressing w j (k + 1) := ⟨Nat.lt_succ_of_le h.le, h.begins, h.held⟩
  have hpress' : Pressing w j' (k + 1) := ⟨by omega, h'.begins, hheld'⟩
  obtain rfl := hpress.unique hpress'
  exact h'.first k h.le hlt h.past

/-- The timer and the latch of the loop find the tick on which a press becomes long. -/
theorem pressHandled_iff (cfg₀ : KartConfig F) (hclock : ClockOk w) (hconfigs : ConfigsOk w)
    (n : Nat) :
    (loopAt cfg₀ w n).pressHandled (w n).cfg (w n).inputs = true ↔ ∃ j, LongPress w j n := by
  constructor
  · intro hpress
    simp only [LoopState.pressHandled, Bool.and_eq_true, Bool.not_eq_true',
      decide_eq_true_eq] at hpress
    obtain ⟨⟨⟨hstart, hne⟩, hlatch⟩, hpassed⟩ := hpress
    obtain ⟨j, hj, hnow⟩ := (holdInv cfg₀ hclock n).pressed hne
    have hpast : PastHold w j n := by
      simpa [holdPassed, PastHold, hnow, TickIn.inputs] using hpassed
    refine ⟨j, Nat.le_of_lt hj.lt, hj.begins, (hj.succ hstart).held, hpast, ?_⟩
    intro m hjm hmn hlong
    have hset := startLatch_of_pastHold cfg₀ hclock hconfigs hj.begins hj.held hjm hmn hlong
    rw [hlatch] at hset
    exact Bool.noConfusion hset
  · rintro ⟨j, h⟩
    rcases pastHold_handled cfg₀ hclock hconfigs h.le h.begins h.held h.past with
      hnow | ⟨m, hjm, hmn, hlong⟩
    · exact hnow
    · exact absurd hlong (h.first m hjm hmn)

/-! ### Armed -/

/-- An armed kart with the latest of its activities. -/
structure StillArmed (cfg₀ : KartConfig F) (w : Nat → TickIn F) (k n : Nat) : Prop where
  armed : (loopAt cfg₀ w (n + 1)).armed = true
  lastAct : ∀ a, k ≤ a → a ≤ n → (a = k ∨ Pushes w a) →
    (w a).nowUs ≤ (loopAt cfg₀ w (n + 1)).lastActUs

/-- A tick that is armed where `can_drive` is computed stays so if its last activity is not
too old. -/
theorem armed_succ_of_active {k n : Nat} (harm : (armAt cfg₀ w n).armed = true)
    (hlast : ∀ a, k ≤ a → a ≤ n → (a = k ∨ Pushes w a) →
      (w a).nowUs ≤ (loopAt cfg₀ w (n + 1)).lastActUs)
    (hactive : ∃ a, k ≤ a ∧ a ≤ n ∧ (a = k ∨ Pushes w a) ∧
      (w n).nowUs - (w a).nowUs ≤ (w n).cfg.disarmS * 1000000) :
    (loopAt cfg₀ w (n + 1)).armed = true := by
  obtain ⟨a, hka, han, hact, hrecent⟩ := hactive
  have hle := hlast a hka han hact
  rw [loopAt_succ_armed, harm, Bool.true_and, Bool.not_eq_true', decide_eq_false_iff_not]
  omega

theorem stillArmed_arming (hclock : ClockOk w) (hconfigs : ConfigsOk w) {j k : Nat}
    (hlong : LongPress w j k) (hcentered : centered (w k).pad = true)
    (hstop : stopCause (w k).inputs = .none) (hbefore : (loopAt cfg₀ w k).armed = false)
    (hactive : ∃ a, k ≤ a ∧ a ≤ k ∧ (a = k ∨ Pushes w a) ∧
      (w k).nowUs - (w a).nowUs ≤ (w k).cfg.disarmS * 1000000) :
    StillArmed cfg₀ w k k := by
  have hhandled := (pressHandled_iff cfg₀ hclock hconfigs k).mpr ⟨j, hlong⟩
  have harm : (armAt cfg₀ w k).armed = true := by
    rw [armAt, arm_armed, hhandled]
    simp only [hstop, hbefore]
    exact hcentered
  have hact : (armAt cfg₀ w k).lastActUs = (w k).nowUs := by
    have heq := arm_lastActUs (loopAt cfg₀ w k) (w k).cfg (w k).inputs
    change (armAt cfg₀ w k).lastActUs = if _ && (armAt cfg₀ w k).armed then _ else _ at heq
    rw [hhandled, harm] at heq
    exact heq
  have hlast : ∀ a, k ≤ a → a ≤ k → (a = k ∨ Pushes w a) →
      (w a).nowUs ≤ (loopAt cfg₀ w (k + 1)).lastActUs := by
    intro a hka hak _
    obtain rfl : a = k := Nat.le_antisymm hak hka
    rw [loopAt_succ_lastActUs, hact]
    simp
  exact ⟨armed_succ_of_active harm hlast hactive, hlast⟩

theorem StillArmed.succ (hclock : ClockOk w) (hconfigs : ConfigsOk w) {k n : Nat}
    (h : StillArmed cfg₀ w k n) (hkn : k ≤ n) (hd : NothingDisarms w k (n + 1)) :
    StillArmed cfg₀ w k (n + 1) := by
  have hstop := hd.noStop (n + 1) (by omega) (Nat.le_refl _)
  have hnot : (loopAt cfg₀ w (n + 1)).pressHandled (w (n + 1)).cfg (w (n + 1)).inputs = false := by
    rw [← Bool.not_eq_true, pressHandled_iff cfg₀ hclock hconfigs]
    rintro ⟨j, hlong⟩
    exact hd.noPress j (n + 1) (by omega) (Nat.le_refl _) hlong
  have harm : (armAt cfg₀ w (n + 1)).armed = true := by
    rw [armAt, arm_armed, hnot]
    simpa [hstop] using h.armed
  have hact : (armAt cfg₀ w (n + 1)).lastActUs = (loopAt cfg₀ w (n + 1)).lastActUs := by
    rw [armAt, arm_lastActUs, hnot]
    simp
  have hlast : ∀ a, k ≤ a → a ≤ n + 1 → (a = k ∨ Pushes w a) →
      (w a).nowUs ≤ (loopAt cfg₀ w (n + 1 + 1)).lastActUs := by
    intro a hka han ha
    rw [loopAt_succ_lastActUs, hact]
    rcases Nat.lt_or_eq_of_le han with hlt | rfl
    · have hold := h.lastAct a hka (Nat.le_of_lt_succ hlt) ha
      have hnow := hclock.lt hlt
      split_ifs
      · omega
      · exact hold
    · -- an activity of the tick itself
      have hdriving : Driving cfg₀ w (n + 1) := by
        rcases ha with hk | hpushes
        · omega
        · exact ⟨harm, hpushes.1, hpushes.2⟩
      simp [hdriving]
  exact ⟨armed_succ_of_active harm hlast (hd.active (n + 1) (by omega) (Nat.le_refl _)), hlast⟩

theorem stillArmed (hclock : ClockOk w) (hconfigs : ConfigsOk w) {j k : Nat}
    (hlong : LongPress w j k) (hcentered : centered (w k).pad = true)
    (hbefore : (loopAt cfg₀ w k).armed = false) {n : Nat} (hkn : k ≤ n)
    (hd : NothingDisarms w k n) : StillArmed cfg₀ w k n := by
  induction n, hkn using Nat.le_induction with
  | base =>
    exact stillArmed_arming hclock hconfigs hlong hcentered
      (hd.noStop k (Nat.le_refl k) (Nat.le_refl k)) hbefore
      (hd.active k (Nat.le_refl k) (Nat.le_refl k))
  | succ n hkn ih =>
    have hd' : NothingDisarms w k n :=
      ⟨fun m hkm hmn => hd.noStop m hkm (by omega),
        fun j m hkm hmn => hd.noPress j m hkm (by omega),
        fun m hkm hmn => hd.active m hkm (by omega)⟩
    exact (ih hd').succ hclock hconfigs hkn hd

/-- What is behind an armed kart, in terms of the inputs. -/
theorem nothingDisarms_of_armed (hclock : ClockOk w) (hconfigs : ConfigsOk w) {n : Nat}
    (h : (loopAt cfg₀ w (n + 1)).armed = true) :
    ∃ j k, k ≤ n ∧ LongPress w j k ∧ (loopAt cfg₀ w k).armed = false ∧
      centered (w k).pad = true ∧ NothingDisarms w k n := by
  have hkept := loopAt_succ_armed cfg₀ w n
  rw [h, eq_comm, Bool.and_eq_true, Bool.not_eq_true', decide_eq_false_iff_not] at hkept
  obtain ⟨k, hinv⟩ := armedInv hclock hconfigs n hkept.1
  have hkn := hinv.since.le
  obtain ⟨j₀, harms⟩ := hinv.arms
  rcases (armAt_armed_cases harms.armed).2 with ⟨harmed, -, -⟩ | ⟨hbefore, hhandled, hcentered, -⟩
  · rw [harms.disarmed] at harmed
    exact Bool.noConfusion harmed
  obtain ⟨j, hlong⟩ := (pressHandled_iff cfg₀ hclock hconfigs k).mp hhandled
  refine ⟨j, k, hkn, hlong, hbefore, hcentered, hinv.since.noStop, ?_, ?_⟩
  · intro j' m hkm hmn hlong'
    exact hinv.since.noPress j' m (hlong.unique hlong' hkm) hlong'.le hmn hlong'.begins
      hlong'.held hlong'.past
  · intro m hkm hmn
    rcases Nat.lt_or_eq_of_le hmn with hlt | rfl
    · obtain ⟨a, hka, ham, hact, hrecent⟩ := hinv.since.active m hkm hlt
      exact ⟨a, hka, ham, hact.imp_right And.right, hrecent⟩
    · -- the last tick did not time out
      have hrecent := Int.not_lt.mp hkept.2
      rw [loopAt_succ_lastActUs] at hrecent
      by_cases hdriving : Driving cfg₀ w m
      · rw [if_pos hdriving] at hrecent
        exact ⟨m, hkm, Nat.le_refl m, Or.inr hdriving.2, hrecent⟩
      · rw [if_neg hdriving] at hrecent
        obtain ⟨a, hka, ham, hact, hnow⟩ := hinv.lastAct
        rw [hnow] at hrecent
        exact ⟨a, hka, ham, hact.imp_right And.right, hrecent⟩

/-- **The published flag.**  A tick publishes "armed" exactly when some START press became
long with the stick centred while the kart was published as disarmed, and since then
nothing has disarmed it. -/
theorem published_armed_iff (hclock : ClockOk w) (hconfigs : ConfigsOk w) (n : Nat) :
    (tickAt cfg₀ w n).tel.armed = true ↔
      ∃ j k, k ≤ n ∧ LongPress w j k ∧ (tickAt cfg₀ w (k - 1)).tel.armed = false ∧
        centered (w k).pad = true ∧ NothingDisarms w k n := by
  have hpublished : ∀ {j k}, LongPress w j k →
      (tickAt cfg₀ w (k - 1)).tel.armed = (loopAt cfg₀ w k).armed := by
    intro j k hlong
    have hpos := hlong.lt hconfigs
    rw [tickAt_tel, show k - 1 + 1 = k by omega]
  constructor
  · intro h
    obtain ⟨j, k, hkn, hlong, hbefore, hrest⟩ := nothingDisarms_of_armed hclock hconfigs h
    exact ⟨j, k, hkn, hlong, (hpublished hlong).trans hbefore, hrest⟩
  · rintro ⟨j, k, hkn, hlong, hbefore, hcentered, hd⟩
    exact (stillArmed hclock hconfigs hlong hcentered ((hpublished hlong).symm.trans hbefore)
      hkn hd).armed

theorem published_armed_iff_bench :
    ∃ j k, k ≤ 1 ∧ LongPress benchRun j k ∧
      (tickAt benchCfg benchRun (k - 1)).tel.armed = false ∧
      centered (benchRun k).pad = true ∧ NothingDisarms benchRun k 1 := by
  have harmed : (tickAt benchCfg benchRun 1).tel.armed = true := by decide +kernel
  exact (published_armed_iff benchRun_clockOk benchRun_configsOk 1).mp harmed

end KartFirmware

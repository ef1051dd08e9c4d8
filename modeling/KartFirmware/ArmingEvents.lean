import KartFirmware.Arming
import KartFirmware.Controller
import KartFirmware.Edges

/-!
# The arm and disarm events

What the event log says of arming.  The events pushed by the control loop are the
edges of the published armed flag, so they alternate; and the data of a `Disarm`
is the cause of its own tick, from which one can tell what disarmed the kart
(`events_explain_disarming`).

Two invariants of the core are needed for every clock and every configuration:
what the hold timer says of the START button (`hold_history`), and what the
activity timer says of the driving (`activity_history`).
-/

set_option linter.unusedSectionVars false

namespace KartFirmware

variable {F : Type} [CFloat F]

/-! ### The two timers, for any clock -/

section Timers

variable (cfg₀ : KartConfig F) (w : Nat → TickIn F)

/-- A hold timer that runs was started on a tick since which START is held. -/
theorem hold_history (n : Nat) (h : (loopAt cfg₀ w n).holdStartUs ≠ 0) :
    ∃ j, j < n ∧ HeldFrom w j (n - 1) ∧ (loopAt cfg₀ w n).holdStartUs = (w j).nowUs := by
  induction n with
  | zero => exact absurd rfl h
  | succ n ih =>
    have hhold := loopAt_succ_holdStartUs cfg₀ w n
    rw [armAt, arm_holdStartUs] at hhold
    have hstart : (w n).pad.start = true := by
      by_contra hreleased
      rw [TickIn.inputs, if_neg hreleased] at hhold
      exact h hhold
    rw [TickIn.inputs, if_pos hstart] at hhold
    by_cases hzero : (loopAt cfg₀ w n).holdStartUs = 0
    · rw [if_pos hzero] at hhold
      refine ⟨n, Nat.lt_succ_self n, ?_, hhold⟩
      intro m hnm hmn
      obtain rfl : m = n := by omega
      exact hstart
    · rw [if_neg hzero] at hhold
      obtain ⟨j, hj, hheld, hnow⟩ := ih hzero
      refine ⟨j, Nat.lt_succ_of_lt hj, ?_, hhold.trans hnow⟩
      intro m hjm hmn
      rcases Nat.lt_or_ge m n with hlt | hge
      · exact hheld m hjm (by omega)
      · obtain rfl : m = n := by omega
        exact hstart

/-- Tick `n` is a driving activity: it arms, or the driver drives. -/
def Activity (n : Nat) : Prop :=
  ((loopAt cfg₀ w n).armed = false ∧ (armAt cfg₀ w n).armed = true) ∨ Driving cfg₀ w n

/-- The kart has been armed since the activity `a`, the last one before tick `n`. -/
structure LastActivity (a n : Nat) : Prop where
  le : a ≤ n
  activity : Activity cfg₀ w a
  armed : ∀ m, a ≤ m → m ≤ n → (armAt cfg₀ w m).armed = true
  none_since : ∀ m, a < m → m < n → ¬ Activity cfg₀ w m

variable {cfg₀ w}

theorem LastActivity.succ {a n : Nat} (h : LastActivity cfg₀ w a n)
    (hlt : a < n → ¬ Activity cfg₀ w n) (harmed : (armAt cfg₀ w (n + 1)).armed = true) :
    LastActivity cfg₀ w a (n + 1) := by
  refine ⟨Nat.le_succ_of_le h.le, h.activity, ?_, ?_⟩
  · intro m ham hmn
    rcases Nat.lt_or_ge m (n + 1) with hold | hnew
    · exact h.armed m ham (Nat.le_of_lt_succ hold)
    · obtain rfl : m = n + 1 := by omega
      exact harmed
  · intro m ham hmn
    rcases Nat.lt_or_ge m n with hold | hnew
    · exact h.none_since m ham hold
    · obtain rfl : m = n := by omega
      exact hlt ham

theorem LastActivity.of_activity {n : Nat} (h : Activity cfg₀ w n)
    (harmed : (armAt cfg₀ w n).armed = true) : LastActivity cfg₀ w n n := by
  refine ⟨Nat.le_refl n, h, ?_, ?_⟩
  · intro m hnm hmn
    obtain rfl : m = n := by omega
    exact harmed
  · intro m hnm hmn
    omega

/-- After an earlier activity, a tick that was armed before and does not drive is none. -/
theorem not_activity_of_not_driving {a n : Nat} (hdriving : ¬ Driving cfg₀ w n)
    (hbefore : a = n ∨ (loopAt cfg₀ w n).armed = true) (hlt : a < n) : ¬ Activity cfg₀ w n := by
  intro hactivity
  rcases hactivity with ⟨hdisarmed, -⟩ | hdriving'
  · rcases hbefore with heq | hwas
    · omega
    · rw [hdisarmed] at hwas
      exact Bool.noConfusion hwas
  · exact hdriving hdriving'

/-- The activity timer of an armed kart holds the time of its last activity. -/
theorem activity_history (n : Nat) (h : (armAt cfg₀ w n).armed = true) :
    ∃ a, LastActivity cfg₀ w a n ∧ (armAt cfg₀ w n).lastActUs = (w a).nowUs ∧
      (a = n ∨ (loopAt cfg₀ w n).armed = true) := by
  induction n with
  | zero =>
    obtain ⟨-, ⟨harmed, -, -⟩ | ⟨hdisarmed, -, -, hact⟩⟩ := armAt_armed_cases h
    · exact Bool.noConfusion harmed
    · exact ⟨0, .of_activity (Or.inl ⟨hdisarmed, h⟩) h, hact, Or.inl rfl⟩
  | succ n ih =>
    obtain ⟨-, ⟨harmed, -, hact⟩ | ⟨hdisarmed, -, -, hact⟩⟩ := armAt_armed_cases h
    · -- armed before: the last activity is tick `n`, or the one before it
      have hprev : (armAt cfg₀ w n).armed = true := by
        have hkept := loopAt_succ_armed cfg₀ w n
        rw [harmed, eq_comm, Bool.and_eq_true] at hkept
        exact hkept.1
      have hsucc := loopAt_succ_lastActUs cfg₀ w n
      by_cases hdriving : Driving cfg₀ w n
      · rw [if_pos hdriving] at hsucc
        have hlast : LastActivity cfg₀ w n n := .of_activity (Or.inr hdriving) hprev
        exact ⟨n, hlast.succ (fun hlt => absurd hlt (Nat.lt_irrefl n)) h, hact.trans hsucc,
          Or.inr harmed⟩
      · rw [if_neg hdriving] at hsucc
        obtain ⟨a, hlast, hnow, hbefore⟩ := ih hprev
        have hnone := not_activity_of_not_driving hdriving hbefore
        exact ⟨a, hlast.succ hnone h, hact.trans (hsucc.trans hnow), Or.inr harmed⟩
    · exact ⟨n + 1, .of_activity (Or.inl ⟨hdisarmed, h⟩) h, hact, Or.inl rfl⟩

end Timers

/-! ### What disarms -/

/-- The condition behind a cause.  The codes of the causes are in the order of
their priority. -/
def Blocks (i : CtrlInputs F) : Stop → Prop
  | .none => False
  | .padLost => i.pad.connected = false
  | .padStale => padStale i = true
  | .eStop => i.pad.estop = true
  | .notCalibrated => i.pad.calibrated = false

theorem stopCause_eq_none_iff (i : CtrlInputs F) :
    stopCause i = .none ↔ ∀ c, ¬ Blocks i c := by
  constructor
  · intro hstop c hblocks
    unfold stopCause at hstop
    split_ifs at hstop
    cases c <;> simp_all [Blocks]
  · intro hclear
    have hconn : i.pad.connected = true := by simpa [Blocks] using hclear .padLost
    have hfresh : padStale i = false := by simpa [Blocks] using hclear .padStale
    have hestop : i.pad.estop = false := by simpa [Blocks] using hclear .eStop
    have hcal : i.pad.calibrated = true := by simpa [Blocks] using hclear .notCalibrated
    simp [stopCause, hconn, hfresh, hestop, hcal]

/-- The cause is the condition of the highest priority that holds. -/
theorem stopCause_first {i : CtrlInputs F} (h : stopCause i ≠ .none) :
    Blocks i (stopCause i) ∧ ∀ c, Blocks i c → (stopCause i).code ≤ c.code := by
  unfold stopCause at h ⊢
  split_ifs at h ⊢ with hconn hstale hestop hcal
  · refine ⟨by simpa [Blocks] using hconn, fun c hc => ?_⟩
    cases c with
    | none => exact absurd hc id
    | _ => decide
  · refine ⟨hstale, fun c hc => ?_⟩
    cases c with
    | none => exact absurd hc id
    | padLost => simp_all [Blocks]
    | _ => decide
  · refine ⟨hestop, fun c hc => ?_⟩
    cases c with
    | none => exact absurd hc id
    | padLost => simp_all [Blocks]
    | padStale => exact absurd hc hstale
    | _ => decide
  · refine ⟨by simpa [Blocks] using hcal, fun c hc => ?_⟩
    cases c with
    | none => exact absurd hc id
    | padLost => simp_all [Blocks]
    | padStale => exact absurd hc hstale
    | eStop => exact absurd hc hestop
    | notCalibrated => decide
  · exact absurd rfl h

theorem Stop.code_eq_zero_iff (c : Stop) : c.code = 0 ↔ c = .none := by
  cases c <;> simp [Stop.code]

section Causes

variable (cfg₀ : KartConfig F) (w : Nat → TickIn F) (n : Nat)

/-- Tick `n` disarms through the START button: nothing is in the way, and a press
of an armed kart has been held past `arm_hold_ms` and is handled now. -/
structure PressDisarms : Prop where
  clear : ∀ c, ¬ Blocks (w n).inputs c
  armed : (loopAt cfg₀ w n).armed = true
  handled : (loopAt cfg₀ w n).pressHandled (w n).cfg (w n).inputs = true
  held : ∃ j, j < n ∧ HeldFrom w j n ∧ PastHold w j n

/-- Tick `n` disarms through the inactivity timeout: nothing is in the way, and the
last activity of the armed kart is more than `disarm_s` old. -/
structure InactivityDisarms : Prop where
  clear : ∀ c, ¬ Blocks (w n).inputs c
  idle : ∃ a, LastActivity cfg₀ w a n ∧ (a < n → ¬ Activity cfg₀ w n) ∧
    (w n).nowUs - (w a).nowUs > (w n).cfg.disarmS * 1000000

variable {cfg₀ w n}

theorem pressDisarms_of_not_armAt (hstop : stopCause (w n).inputs = .none)
    (hbefore : (loopAt cfg₀ w n).armed = true) (h : (armAt cfg₀ w n).armed = false) :
    PressDisarms cfg₀ w n := by
  have hhandled : (loopAt cfg₀ w n).pressHandled (w n).cfg (w n).inputs = true := by
    by_contra hnot
    rw [armAt, arm_armed, if_neg hnot, hbefore, hstop] at h
    exact Bool.noConfusion h
  have hparts := hhandled
  simp only [LoopState.pressHandled, Bool.and_eq_true] at hparts
  obtain ⟨⟨⟨hstart, hne⟩, -⟩, hpassed⟩ := hparts
  obtain ⟨j, hj, hheld, hnow⟩ := hold_history cfg₀ w n (of_decide_eq_true hne)
  refine ⟨(stopCause_eq_none_iff _).mp hstop, hbefore, hhandled, j, hj, ?_, ?_⟩
  · intro m hjm hmn
    rcases Nat.lt_or_ge m n with hlt | hge
    · exact hheld m hjm (by omega)
    · obtain rfl : m = n := by omega
      exact hstart
  · have hpast := of_decide_eq_true hpassed
    rw [hnow] at hpast
    exact hpast

theorem inactivityDisarms_of_armAt (hstop : stopCause (w n).inputs = .none)
    (h : (armAt cfg₀ w n).armed = true) (hafter : (loopAt cfg₀ w (n + 1)).armed = false) :
    InactivityDisarms cfg₀ w n := by
  have hkept := loopAt_succ_armed cfg₀ w n
  rw [hafter, h, Bool.true_and, eq_comm, Bool.not_eq_false', decide_eq_true_eq] at hkept
  have hsucc := loopAt_succ_lastActUs cfg₀ w n
  refine ⟨(stopCause_eq_none_iff _).mp hstop, ?_⟩
  by_cases hdriving : Driving cfg₀ w n
  · rw [if_pos hdriving] at hsucc
    rw [hsucc] at hkept
    exact ⟨n, .of_activity (Or.inr hdriving) h, fun hlt => absurd hlt (Nat.lt_irrefl n), hkept⟩
  · rw [if_neg hdriving] at hsucc
    obtain ⟨a, hlast, hnow, hbefore⟩ := activity_history n h
    rw [hsucc, hnow] at hkept
    exact ⟨a, hlast, not_activity_of_not_driving hdriving hbefore, hkept⟩

/-- What the data of a `Disarm` pushed on tick `n` tells. -/
structure DisarmExplained (cfg₀ : KartConfig F) (w : Nat → TickIn F) (n : Nat) (data : UInt32) :
    Prop where
  blocked : data ≠ 0 ↔ ∃ c, Blocks (w n).inputs c
  first : data ≠ 0 → ∃ c : Stop, data = c.code ∧ Blocks (w n).inputs c ∧
    ∀ c', Blocks (w n).inputs c' → c.code ≤ c'.code
  manual : data = 0 ↔ PressDisarms cfg₀ w n ∨ InactivityDisarms cfg₀ w n

theorem disarmExplained (hbefore : (loopAt cfg₀ w n).armed = true)
    (hafter : (loopAt cfg₀ w (n + 1)).armed = false) :
    DisarmExplained cfg₀ w n (stopCause (w n).inputs).code := by
  have hzero := Stop.code_eq_zero_iff (stopCause (w n).inputs)
  refine ⟨?_, ?_, ?_⟩
  · rw [ne_eq, hzero, stopCause_eq_none_iff, not_forall]
    simp only [not_not]
  · intro hne
    exact ⟨stopCause (w n).inputs, rfl, stopCause_first (fun hstop => hne (hzero.mpr hstop))⟩
  · rw [hzero]
    constructor
    · intro hstop
      cases harm : (armAt cfg₀ w n).armed with
      | false => exact Or.inl (pressDisarms_of_not_armAt hstop hbefore harm)
      | true => exact Or.inr (inactivityDisarms_of_armAt hstop harm hafter)
    · rintro (hpress | hidle)
      · exact (stopCause_eq_none_iff _).mpr hpress.clear
      · exact (stopCause_eq_none_iff _).mpr hidle.clear

end Causes

/-! ### The pushed events -/

namespace EspController

variable [CSqrt F] (cfg₀ : KartConfig F) (w : Nat → EspIn F)

/-- The armed flag published before tick `n`. -/
def published : Nat → Bool
  | 0 => (KartStatus.initial : KartStatus F).arming
  | n + 1 => ((machine cfg₀).outAt w n).status.arming

/-- The events pushed by the first `n` ticks. -/
def pushed (n : Nat) : List (evlog.Ev × UInt32) :=
  (List.range n).filterMap fun k => ((machine cfg₀).outAt w k).event

theorem published_eq (n : Nat) :
    published cfg₀ w n = (loopAt cfg₀ (coreRun w) n).armed := by
  cases n with
  | zero => rfl
  | succ n => exact outAt_arming cfg₀ w n

def edgeEvent (data : UInt32) : Bool → evlog.Ev × UInt32
  | true => (.arm, 0)
  | false => (.disarm, data)

/-- The event of a tick is the edge of the published flag. -/
theorem event_eq_edge (n : Nat) :
    ((machine cfg₀).outAt w n).event =
      (Edges.edgeAt (published cfg₀ w) n).map
        (edgeEvent (stopCause (coreRun w n).inputs).code) := by
  rw [eventAt, Edges.edgeAt, published_eq, published_eq, armedEdge, tickAt_tel]
  cases (loopAt cfg₀ (coreRun w) n).armed <;> cases (loopAt cfg₀ (coreRun w) (n + 1)).armed <;> rfl

theorem pushed_kinds (n : Nat) :
    (pushed cfg₀ w n).map Prod.fst =
      (Edges.edges (published cfg₀ w) n).map fun v => if v then .arm else .disarm := by
  rw [pushed, Edges.edges, List.map_filterMap, List.map_filterMap]
  congr 1
  funext k
  rw [event_eq_edge, Option.map_map]
  congr 1
  funext v
  cases v <;> rfl

theorem pushed_getElem (n i : Nat) (h : i < (pushed cfg₀ w n).length) :
    ((pushed cfg₀ w n)[i]).1 = if i % 2 = 0 then .arm else .disarm := by
  have hkinds := pushed_kinds cfg₀ w n
  have hlen := congrArg List.length hkinds
  rw [List.length_map, List.length_map] at hlen
  have hi : i < (Edges.edges (published cfg₀ w) n).length := hlen ▸ h
  have hkind := congrArg (fun l => l[i]?) hkinds
  simp only [List.getElem?_map, List.getElem?_eq_getElem h, List.getElem?_eq_getElem hi,
    Option.map_some, Option.some.injEq] at hkind
  rw [hkind, Edges.edges_getElem (published cfg₀ w) n i hi]
  have hfirst : published cfg₀ w 0 = false := rfl
  rw [hfirst]
  split_ifs <;> simp_all

/-- **The log answers why the kart disarmed.**  In every run the pushed events are
`Arm` and `Disarm` in turn, one for each change of the published flag, each of them
taken by a ring that has room; and the data of a `Disarm` explains its tick. -/
theorem events_explain_disarming {δ : Type} (n : Nat) :
    (∀ i (h : i < (pushed cfg₀ w n).length),
        ((pushed cfg₀ w n)[i]).1 = if i % 2 = 0 then .arm else .disarm) ∧
      (((machine cfg₀).outAt w n).event.isSome = true ↔
        published cfg₀ w (n + 1) ≠ published cfg₀ w n) ∧
      (∀ ev data, ((machine cfg₀).outAt w n).event = some (ev, data) →
        ∀ (s : evlog.Log δ) (nowUs : Int), s.part ≠ none → s.pending < evlog.RING_N →
          (s.push ev data nowUs).head = s.head + 1 ∧
            (s.push ev data nowUs).ring (evlog.Log.slot s.head) =
              { code := ev.code, tMs := UInt32.ofInt (nowUs / 1000), data := data }) ∧
      ∀ data, ((machine cfg₀).outAt w n).event = some (.disarm, data) →
        DisarmExplained cfg₀ (coreRun w) n data := by
  refine ⟨pushed_getElem cfg₀ w n, ?_, ?_, ?_⟩
  · rw [event_eq_edge, Option.isSome_map, Edges.edgeAt]
    split_ifs with hsame
    · exact iff_of_false (by simp) (not_not.mpr hsame)
    · exact iff_of_true rfl hsame
  · intro ev data _ s nowUs hpart hroom
    rw [evlog.Log.push, if_neg hpart, if_neg (Nat.not_le.mpr hroom)]
    exact ⟨rfl, Function.update_self ..⟩
  · intro data hevent
    rw [eventAt, armedEdge, tickAt_tel] at hevent
    split_ifs at hevent with harms hdisarms
    · simp at hevent
    · simp only [Bool.and_eq_true, Bool.not_eq_true'] at hdisarms
      obtain rfl : (stopCause (coreRun w n).inputs).code = data :=
        congrArg Prod.snd (Option.some.inj hevent)
      exact disarmExplained hdisarms.2 hdisarms.1

end EspController

end KartFirmware

import KartFirmware.Mealy
import KartFirmware.Status

/-!
# The Wi-Fi station's retries

The reconnection of `webserver.cpp`: the one-shot timer `m_sta_retry`, its callback
`staRetryCb`, and what `wifiEvent` makes of the events of the station.  A run starts
behind the first connect of `STA_START`; then the station is disconnected, connects, gets
an address, the timer fires, or the kart publishes a status, in any order and one at a
time.  The status mutex may be busy while the callback runs.

The Wi-Fi driver is an attempt or not: `esp_wifi_connect` begins one, which ends with a
connected or a disconnected event, and a station connects in no other way.  An event that
cannot happen is skipped.
-/

set_option linter.unusedSectionVars false

namespace KartFirmware

namespace wifi

def STA_RETRY_MIN_MS : Int := 5000
def STA_RETRY_MAX_MS : Int := 300000
def STA_ARMED_RECHECK_MS : Int := 3000

/-! ### The station and its timer -/

/-- What the Wi-Fi driver is doing. -/
inductive Link where
  | idle
  | attempting
  | connected
deriving DecidableEq

/-- A one-shot `esp_timer`, with the delays in µs for which it was started and has not
fired. -/
structure Timer where
  pending : List Int
deriving DecidableEq

/-- `esp_timer_start_once`, which a running timer refuses. -/
def Timer.startOnce (t : Timer) (us : Int) : Bool × Timer :=
  if t.pending = [] then (true, { pending := us :: t.pending }) else (false, t)

structure Station (F : Type) where
  status : KartStatus F
  link : Link
  /-- `m_sta_retry`, if it was created. -/
  retry : Option Timer
  backoffMs : Int
  staConnected : Bool
  staIp : String

/-- What the callbacks ask of the system. -/
inductive Call where
  | connect
  | startOnce (us : Int) (ok : Bool)
deriving DecidableEq

inductive Event (F : Type) where
  | disconnected
  | connected
  | gotIp (ip : String)
  | fired (busy : Bool)
  | publish (st : KartStatus F)

section Callbacks

variable {F : Type} [CFloat F]

def Station.pending (s : Station F) : List Int := (s.retry.map Timer.pending).getD []

def Station.wifiConnect (s : Station F) : Station F × List Call :=
  ({ s with link := .attempting }, [.connect])

/-- Starts the timer, if there is one. -/
def Station.startRetry (s : Station F) (us : Int) : Bool × Station F :=
  match s.retry with
  | none => (false, s)
  | some t => ((t.startOnce us).1, { s with retry := some (t.startOnce us).2 })

/-- The status says armed, or is busy. -/
def maybeArmed (st : KartStatus F) (busy : Bool) : Bool :=
  match statusTrySnapshot st busy with
  | none => true
  | some st => st.arming

def staRetryCb (s : Station F) (busy : Bool) : Station F × List Call :=
  if maybeArmed s.status busy then
    let us := STA_ARMED_RECHECK_MS * 1000
    let r := s.startRetry us
    (r.2, [.startOnce us r.1])
  else s.wifiConnect

def nextBackoff (delay : Int) : Int :=
  if delay ≥ STA_RETRY_MAX_MS / 2 then STA_RETRY_MAX_MS else delay * 2

/-- `wifiEvent` for `STA_DISCONNECTED`. -/
def onDisconnected (s : Station F) : Station F × List Call :=
  let s := { s with staConnected := false, staIp := "0.0.0.0" }
  match s.retry with
  | none => (s, [])
  | some _ =>
    let delay := s.backoffMs
    let us := delay * 1000
    let r := s.startRetry us
    (if r.1 then { r.2 with backoffMs := nextBackoff delay } else r.2, [.startOnce us r.1])

/-- `wifiEvent` for `STA_GOT_IP`. -/
def onGotIp (s : Station F) (ip : String) : Station F :=
  { s with staIp := ip, staConnected := true, backoffMs := STA_RETRY_MIN_MS }

def Station.event (s : Station F) : Event F → Station F × List Call
  | .disconnected => onDisconnected { s with link := .idle }
  | .connected => (if s.link = .attempting then { s with link := .connected } else s, [])
  | .gotIp ip => (onGotIp s ip, [])
  | .fired busy =>
    match s.retry with
    | some { pending := _ :: rest } => staRetryCb { s with retry := some { pending := rest } } busy
    | _ => (s, [])
  | .publish st => ({ s with status := st }, [])

/-- `wifiSoftAPInit` with credentials, and the connect of `STA_START`. -/
def Station.start : Station F :=
  (Station.wifiConnect
    { status := .initial, link := .idle, retry := some { pending := [] }
      backoffMs := STA_RETRY_MIN_MS, staConnected := false, staIp := "0.0.0.0" }).1

def machine : Mealy.Machine (Station F) (Event F) (List Call) where
  init := Station.start
  step := Station.event

end Callbacks

/-! ### What an event can do -/

section Events

variable {F : Type} [CFloat F] {s : Station F} {l : List Int}

theorem pending_eq (h : s.retry = some ⟨l⟩) : s.pending = l := by
  rw [Station.pending, h]
  rfl

theorem startRetry_idle (h : s.retry = some ⟨[]⟩) (us : Int) :
    s.startRetry us = (true, { s with retry := some ⟨[us]⟩ }) := by
  rw [Station.startRetry, h]
  rfl

theorem startRetry_running {us : Int} (h : s.retry = some ⟨us :: l⟩) (us' : Int) :
    s.startRetry us' = (false, s) := by
  rw [Station.startRetry, h]
  simp [Timer.startOnce, ← h]

/-- A disconnect schedules an attempt, and the next delay is longer. -/
theorem event_disconnected_idle (h : s.retry = some ⟨[]⟩) :
    s.event .disconnected =
      ({ s with
          link := .idle, retry := some ⟨[s.backoffMs * 1000]⟩
          backoffMs := nextBackoff s.backoffMs, staConnected := false, staIp := "0.0.0.0" },
        [.startOnce (s.backoffMs * 1000) true]) := by
  rw [Station.event, onDisconnected]
  dsimp only
  rw [h]
  dsimp only
  rw [startRetry_idle rfl]
  rfl

/-- A disconnect while an attempt is scheduled changes neither. -/
theorem event_disconnected_running {us : Int} (h : s.retry = some ⟨us :: l⟩) :
    s.event .disconnected =
      ({ s with link := .idle, staConnected := false, staIp := "0.0.0.0" },
        [.startOnce (s.backoffMs * 1000) false]) := by
  rw [Station.event, onDisconnected]
  dsimp only
  rw [h]
  dsimp only
  rw [startRetry_running rfl]
  simp [← h]

theorem event_fired_idle (h : s.retry = some ⟨[]⟩) (busy : Bool) :
    s.event (.fired busy) = (s, []) := by
  rw [Station.event, h]

/-- The kart may be armed: the attempt is postponed, at the same backoff. -/
theorem event_fired_armed {us : Int} (h : s.retry = some ⟨[us]⟩) {busy : Bool}
    (harmed : maybeArmed s.status busy = true) :
    s.event (.fired busy) =
      ({ s with retry := some ⟨[STA_ARMED_RECHECK_MS * 1000]⟩ },
        [.startOnce (STA_ARMED_RECHECK_MS * 1000) true]) := by
  rw [Station.event, h]
  dsimp only
  rw [staRetryCb, if_pos harmed]
  dsimp only
  rw [startRetry_idle rfl]

theorem event_fired_disarmed {us : Int} (h : s.retry = some ⟨[us]⟩) {busy : Bool}
    (hdisarmed : maybeArmed s.status busy = false) :
    s.event (.fired busy) =
      ({ s with retry := some ⟨[]⟩, link := .attempting }, [.connect]) := by
  rw [Station.event, h]
  dsimp only
  rw [staRetryCb, if_neg (by simp [hdisarmed])]
  rfl

theorem maybeArmed_eq_false {st : KartStatus F} {busy : Bool} :
    maybeArmed st busy = false ↔ busy = false ∧ st.arming = false := by
  cases busy <;> simp [maybeArmed, statusTrySnapshot]

theorem nextBackoff_eq (delay : Int) : nextBackoff delay = min STA_RETRY_MAX_MS (2 * delay) := by
  simp only [nextBackoff, STA_RETRY_MAX_MS]
  split_ifs <;> omega

/-! ### The invariant -/

/-- The timer is pending at most once, and is whenever the station is neither connected
nor connecting. -/
structure StationInv (s : Station F) : Prop where
  timer : s.retry = some ⟨s.pending⟩
  single : s.pending.length ≤ 1
  kept : s.link = .idle → s.pending ≠ []

theorem StationInv.of_idle (h : s.retry = some ⟨[]⟩) (hlink : s.link ≠ .idle) : StationInv s := by
  have hpending := pending_eq h
  refine ⟨hpending ▸ h, ?_, fun hidle => absurd hidle hlink⟩
  rw [hpending]
  exact Nat.zero_le 1

theorem StationInv.of_running {us : Int} (h : s.retry = some ⟨[us]⟩) : StationInv s := by
  have hpending := pending_eq h
  refine ⟨hpending ▸ h, ?_, fun _ => ?_⟩
  · rw [hpending]
    exact Nat.le_refl 1
  · rw [hpending]
    exact List.cons_ne_nil us []

/-- The timer is stopped and the station busy, or the timer runs. -/
theorem StationInv.cases (h : StationInv s) :
    (s.retry = some ⟨[]⟩ ∧ s.link ≠ .idle) ∨ ∃ us, s.retry = some ⟨[us]⟩ := by
  obtain ⟨htimer, hsingle, hkept⟩ := h
  match hpending : s.pending with
  | [] =>
    rw [hpending] at htimer
    exact Or.inl ⟨htimer, fun hidle => hkept hidle hpending⟩
  | [us] =>
    rw [hpending] at htimer
    exact Or.inr ⟨us, htimer⟩
  | _ :: _ :: _ =>
    rw [hpending, List.length_cons, List.length_cons] at hsingle
    omega

theorem StationInv.frame (h : StationInv s) {s' : Station F} (hretry : s'.retry = s.retry)
    (hlink : s'.link = .idle → s.link = .idle) : StationInv s' := by
  rcases h.cases with ⟨hstopped, hbusy⟩ | ⟨us, hruns⟩
  · exact .of_idle (hretry.trans hstopped) fun hidle => hbusy (hlink hidle)
  · exact .of_running (hretry.trans hruns)

theorem StationInv.event (h : StationInv s) (e : Event F) : StationInv (s.event e).1 := by
  cases e with
  | disconnected =>
    rcases h.cases with ⟨hstopped, -⟩ | ⟨us, hruns⟩
    · rw [event_disconnected_idle hstopped]
      exact .of_running rfl
    · rw [event_disconnected_running hruns]
      exact .of_running hruns
  | connected =>
    rw [Station.event]
    split_ifs with hattempt
    · exact h.frame rfl fun hidle => absurd hidle (by simp)
    · exact h
  | gotIp ip => exact h.frame rfl id
  | fired busy =>
    rcases h.cases with ⟨hstopped, -⟩ | ⟨us, hruns⟩
    · rw [event_fired_idle hstopped]
      exact h
    · cases harmed : maybeArmed s.status busy with
      | true =>
        rw [event_fired_armed hruns harmed]
        exact .of_running rfl
      | false =>
        rw [event_fired_disarmed hruns harmed]
        exact .of_idle rfl (by simp)
  | publish st => exact h.frame rfl id

/-- Only the callback connects, and only when it has read that the kart is disarmed. -/
theorem connect_guarded (h : StationInv s) {e : Event F} (hcall : .connect ∈ (s.event e).2) :
    e = .fired false ∧ s.status.arming = false := by
  cases e with
  | disconnected =>
    rcases h.cases with ⟨hstopped, -⟩ | ⟨us, hruns⟩
    · rw [event_disconnected_idle hstopped] at hcall
      simp at hcall
    · rw [event_disconnected_running hruns] at hcall
      simp at hcall
  | fired busy =>
    rcases h.cases with ⟨hstopped, -⟩ | ⟨us, hruns⟩
    · rw [event_fired_idle hstopped] at hcall
      simp at hcall
    · cases harmed : maybeArmed s.status busy with
      | true =>
        rw [event_fired_armed hruns harmed] at hcall
        simp at hcall
      | false =>
        obtain ⟨rfl, hdisarmed⟩ := maybeArmed_eq_false.mp harmed
        exact ⟨rfl, hdisarmed⟩
  | _ => simp [Station.event] at hcall

end Events

/-! ### Runs -/

section Runs

variable {F : Type} [CFloat F] (w : Nat → Event F)

def stationAt (n : Nat) : Station F := machine.stateAt w n

def callsAt (n : Nat) : List Call := machine.outAt w n

theorem stationAt_succ (n : Nat) :
    stationAt w (n + 1) = ((stationAt w n).event (w n)).1 := rfl

theorem callsAt_event (n : Nat) : callsAt w n = ((stationAt w n).event (w n)).2 := rfl

/-- The event is a disconnect that has scheduled an attempt. -/
def schedules (e : Event F) (calls : List Call) : Bool :=
  match e with
  | .disconnected => calls.any fun c =>
    match c with
    | .startOnce _ ok => ok
    | .connect => false
  | _ => false

/-- The attempts scheduled before event `n`, since the last address. -/
def attempts : Nat → Nat
  | 0 => 0
  | n + 1 =>
    match w n with
    | .gotIp _ => 0
    | e => if schedules e (callsAt w n) then attempts n + 1 else attempts n

theorem stationAt_inv (n : Nat) : StationInv (stationAt w n) :=
  machine.stateAt_induction (fun _ s => StationInv s)
    (.of_idle rfl (by simp [machine, Station.start, Station.wifiConnect]))
    (fun _ _ h => h.event _) n

/-- The backoff after a number of attempts without an address. -/
def backoffAfter (attempts : Nat) : Int :=
  min STA_RETRY_MAX_MS (STA_RETRY_MIN_MS * 2 ^ attempts)

theorem backoffAfter_zero : backoffAfter 0 = STA_RETRY_MIN_MS := by decide

theorem backoffAfter_succ (k : Nat) : backoffAfter (k + 1) = nextBackoff (backoffAfter k) := by
  rw [nextBackoff_eq, backoffAfter, backoffAfter, pow_succ]
  simp only [STA_RETRY_MAX_MS, STA_RETRY_MIN_MS]
  generalize (2 : Int) ^ k = p
  omega

theorem backoffAfter_range (k : Nat) :
    STA_RETRY_MIN_MS ≤ backoffAfter k ∧ backoffAfter k ≤ STA_RETRY_MAX_MS := by
  have hpow : (1 : Int) ≤ 2 ^ k := one_le_pow₀ (by decide)
  simp only [backoffAfter, STA_RETRY_MAX_MS, STA_RETRY_MIN_MS]
  generalize (2 : Int) ^ k = p at hpow
  omega

/-- The backoff counts the attempts since the last address. -/
theorem stationAt_backoffMs (n : Nat) :
    (stationAt w n).backoffMs = backoffAfter (attempts w n) := by
  induction n with
  | zero => exact backoffAfter_zero.symm
  | succ n ih =>
    have hinv := (stationAt_inv w n).cases
    rw [stationAt_succ, attempts, callsAt_event]
    cases he : w n with
    | disconnected =>
      rcases hinv with ⟨hstopped, -⟩ | ⟨us, hruns⟩
      · rw [event_disconnected_idle hstopped]
        simp only [schedules, List.any_cons, Bool.true_or, if_true]
        rw [backoffAfter_succ, ih]
      · rw [event_disconnected_running hruns]
        exact ih
    | connected =>
      simp only [Station.event, schedules, Bool.false_eq_true, if_false]
      split_ifs <;> exact ih
    | gotIp ip => exact backoffAfter_zero.symm
    | fired busy =>
      rcases hinv with ⟨hstopped, -⟩ | ⟨us, hruns⟩
      · rw [event_fired_idle hstopped]
        exact ih
      · cases harmed : maybeArmed (stationAt w n).status busy with
        | true =>
          rw [event_fired_armed hruns harmed]
          exact ih
        | false =>
          rw [event_fired_disarmed hruns harmed]
          exact ih
    | publish st => exact ih

/-- What the retries owe in a run. -/
structure RetriesKept : Prop where
  guarded : ∀ n, .connect ∈ callsAt w n →
    w n = .fired false ∧ (stationAt w n).status.arming = false
  single : ∀ n, (stationAt w n).pending.length ≤ 1
  kept : ∀ n, (stationAt w n).link = .idle → (stationAt w n).pending ≠ []
  resumed : ∀ n, w n = .fired false → (stationAt w n).pending ≠ [] →
    (stationAt w n).status.arming = false → callsAt w n = [.connect]
  range : ∀ n, STA_RETRY_MIN_MS ≤ (stationAt w n).backoffMs ∧
    (stationAt w n).backoffMs ≤ STA_RETRY_MAX_MS
  backoff : ∀ n, (stationAt w n).backoffMs = backoffAfter (attempts w n)
  delay : ∀ n us, w n = .disconnected → .startOnce us true ∈ callsAt w n →
    us = (stationAt w n).backoffMs * 1000 ∧
      (stationAt w (n + 1)).backoffMs =
        min STA_RETRY_MAX_MS (2 * (stationAt w n).backoffMs)
  postponed : ∀ n busy, w n = .fired busy → maybeArmed (stationAt w n).status busy = true →
    (stationAt w n).pending ≠ [] →
      (stationAt w (n + 1)).pending = [STA_ARMED_RECHECK_MS * 1000] ∧
        (stationAt w (n + 1)).backoffMs = (stationAt w n).backoffMs
  reset : ∀ n ip, w n = .gotIp ip → (stationAt w (n + 1)).backoffMs = STA_RETRY_MIN_MS

/-- The timer of a station that has something pending. -/
theorem pending_running {n : Nat} (h : (stationAt w n).pending ≠ []) :
    ∃ us, (stationAt w n).retry = some ⟨[us]⟩ := by
  rcases (stationAt_inv w n).cases with ⟨hstopped, -⟩ | hruns
  · exact absurd (pending_eq hstopped) h
  · exact hruns

/-- **No retry is lost or doubled**, in every order of the events. -/
theorem retries_kept : RetriesKept w := by
  refine ⟨?_, ?_, ?_, ?_, ?_, ?_, ?_, ?_, ?_⟩
  · exact fun n hcall => connect_guarded (stationAt_inv w n) hcall
  · exact fun n => (stationAt_inv w n).single
  · exact fun n => (stationAt_inv w n).kept
  · intro n he hpending hdisarmed
    obtain ⟨us, hruns⟩ := pending_running w hpending
    have hread : maybeArmed (stationAt w n).status false = false :=
      maybeArmed_eq_false.mpr ⟨rfl, hdisarmed⟩
    rw [callsAt_event, he, event_fired_disarmed hruns hread]
  · intro n
    rw [stationAt_backoffMs]
    exact backoffAfter_range _
  · exact stationAt_backoffMs w
  · intro n us he hcall
    rw [callsAt_event, he] at hcall
    rw [stationAt_succ, he, ← nextBackoff_eq]
    rcases (stationAt_inv w n).cases with ⟨hstopped, -⟩ | ⟨us', hruns⟩
    · rw [event_disconnected_idle hstopped] at hcall ⊢
      simp only [List.mem_singleton, Call.startOnce.injEq, and_true] at hcall
      exact ⟨hcall, rfl⟩
    · rw [event_disconnected_running hruns] at hcall
      simp at hcall
  · intro n busy he harmed hpending
    obtain ⟨us, hruns⟩ := pending_running w hpending
    rw [stationAt_succ, he, event_fired_armed hruns harmed]
    exact ⟨rfl, rfl⟩
  · intro n ip he
    rw [stationAt_succ, he]
    rfl

end Runs

end wifi

end KartFirmware

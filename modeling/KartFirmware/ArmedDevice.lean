import KartFirmware.WebServer

/-!
# The device under a driver

While the published status says armed, nothing that arrives changes a setting: not the
configuration, not its stored copy, not the credentials, not the calibration.  So the ticks
of a drive all work on one configuration and one calibration, and the flash is left alone
(`armed_device_kept`), except that the event log takes a busy status mutex for disarmed.

Each guard is in another place of the source; what they have in common is the status.  A
request is one step here as in `WebServer`: a tick that arms the kart in the middle of a request,
behind its look at the status, is left out.
-/

set_option linter.unusedSectionVars false

namespace KartFirmware

namespace web

variable {δ : Type}

/-- What is set up on the web page. -/
structure Settings where
  store : ConfigStore
  wifi : WifiNvs
  cal : Calibration Float32
  pad : PadNvs Float32

def Device.settings (d : Device δ) : Settings where
  store := d.store
  wifi := d.wifi
  cal := d.input.cal
  pad := d.input.nvs

/-- The status mutex is free when the log asks for it. -/
def Event.Looks : Event → Prop
  | .maintain busy => busy = false
  | .request _ a => a.busy = false
  | _ => True

section Runs

variable (drv : evlog.FlashDriver δ) (unspecified : Float32 → Int)
  (pbDecode : List UInt8 → Decoded) (uninit : KartConfig Float32)

/-- The device from `start` on. -/
def machine (start : Device δ) : Mealy.Machine (Device δ) Event Unit where
  init := start
  step d e := (d.step drv unspecified pbDecode uninit e, ())

def deviceAt (start : Device δ) (w : Nat → Event) (n : Nat) : Device δ :=
  (machine drv unspecified pbDecode uninit start).stateAt w n

theorem deviceAt_succ (start : Device δ) (w : Nat → Event) (n : Nat) :
    deviceAt drv unspecified pbDecode uninit start w (n + 1) =
      (deviceAt drv unspecified pbDecode uninit start w n).step drv unspecified pbDecode uninit
        (w n) := rfl

theorem reachable_deviceAt {start : Device δ}
    (h : Reachable drv unspecified pbDecode uninit start) (w : Nat → Event) (n : Nat) :
    Reachable drv unspecified pbDecode uninit
      (deviceAt drv unspecified pbDecode uninit start w n) :=
  (machine drv unspecified pbDecode uninit start).stateAt_induction
    (fun _ d => Reachable drv unspecified pbDecode uninit d) h (fun n _ ih => ih.step (w n)) n

/-! ### One step -/

theorem onData_kept (s : Input Float32) (now : Int) (rep : HidReport Float32) :
    (s.onData now rep).cal = s.cal ∧ (s.onData now rep).nvs = s.nvs := by
  simp only [Input.onData]
  split_ifs <;> exact ⟨rfl, rfl⟩

theorem onConn_kept (s : Input Float32) (connected : Bool) :
    (s.onConn connected).cal = s.cal ∧ (s.onConn connected).nvs = s.nvs := by
  cases connected <;> exact ⟨rfl, rfl⟩

variable {drv unspecified pbDecode uninit} {d : Device δ}

/-- A request to an armed kart is refused by the guard of its verb. -/
theorem request_settings (h : Reachable drv unspecified pbDecode uninit d)
    (harmed : d.status.arming = true) (req : WsRequest) (a : Answers) :
    (wsHandler drv unspecified pbDecode uninit d req a).1.settings = d.settings := by
  have hscoped := requests_scoped h req a
  have hset : ¬ SetAccepted (req.received pbDecode) d.status := by
    rintro ⟨_, _, -, -, -, -, hdisarmed⟩
    exact Bool.noConfusion (harmed.symm.trans hdisarmed)
  have hwifi : ¬ WifiAccepted (req.received pbDecode) d.status := by
    rintro ⟨_, _, -, -, -, -, -, hdisarmed⟩
    exact Bool.noConfusion (harmed.symm.trans hdisarmed)
  have hpad : ¬ PadAccepted (req.received pbDecode) d.status := by
    rintro ⟨_, _, -, -, -, hdisarmed⟩
    exact Bool.noConfusion (harmed.symm.trans hdisarmed)
  unfold Device.settings
  rw [hscoped.store hset, hscoped.wifi hwifi, hscoped.pad hpad]

theorem step_settings (h : Reachable drv unspecified pbDecode uninit d)
    (harmed : d.status.arming = true) (e : Event) :
    (d.step drv unspecified pbDecode uninit e).settings = d.settings := by
  unfold Device.step
  split_ifs
  · rfl
  cases e with
  | tick nowUs pushUs => rfl
  | data nowUs rep =>
    have hkept := onData_kept d.input nowUs rep
    simp only [Device.settings, hkept]
  | conn connected =>
    have hkept := onConn_kept d.input connected
    simp only [Device.settings, hkept]
  | maintain busy => rfl
  | request req a => exact request_settings h harmed req a

theorem push_ops (log : evlog.Log δ) (ev : evlog.Ev) (data : UInt32) (nowUs : Int) :
    (log.push ev data nowUs).ops = log.ops := by
  simp only [evlog.Log.push]
  split_ifs <;> rfl

theorem tick_ops (d : Device δ) (nowUs pushUs : Int) :
    (d.tick nowUs pushUs).log.ops = d.log.ops := by
  unfold Device.tick
  dsimp only
  split
  · exact push_ops ..
  · rfl

/-- The log is the log of a `clear`, or as it was. -/
theorem dispatch_log (drv : evlog.FlashDriver δ) (unspecified : Float32 → Int) (d : Device δ)
    (draft : SetCtx) (rq : Req) (a : Answers) :
    (dispatch drv unspecified d draft rq a).1.log = d.log ∨
      (dispatch drv unspecified d draft rq a).1.log =
        (d.log.clear drv d.status a.busy a.nowUs a.reset).1 := by
  unfold dispatch
  cases hv : Verb.of rq.type with
  | wifiset =>
    dsimp only
    cases wifiError d.status.arming rq <;> exact .inl rfl
  | set =>
    dsimp only
    split_ifs <;> exact .inl rfl
  | evlogclear => exact .inr rfl
  | _ => exact .inl rfl

theorem wsHandler_log (drv : evlog.FlashDriver δ) (unspecified : Float32 → Int)
    (pbDecode : List UInt8 → Decoded) (uninit : KartConfig Float32) (d : Device δ)
    (req : WsRequest) (a : Answers) :
    (wsHandler drv unspecified pbDecode uninit d req a).1.log = d.log ∨
      (wsHandler drv unspecified pbDecode uninit d req a).1.log =
        (d.log.clear drv d.status a.busy a.nowUs a.reset).1 := by
  have heq := wsHandler_eq drv unspecified pbDecode uninit d req a
  cases hreceived : req.received pbDecode with
  | none =>
    simp only [hreceived] at heq
    rw [heq.1]
    exact .inl rfl
  | some decoded =>
    simp only [hreceived] at heq
    rw [heq]
    cases decoded.req with
    | none => exact .inl rfl
    | some rq => exact dispatch_log ..

/-- With the mutex free the log leaves the flash of an armed kart alone. -/
theorem step_ops (harmed : d.status.arming = true) {e : Event} (hlooks : e.Looks) :
    (d.step drv unspecified pbDecode uninit e).log.ops = d.log.ops := by
  unfold Device.step
  split_ifs
  · rfl
  cases e with
  | tick nowUs pushUs => exact tick_ops d nowUs pushUs
  | data nowUs rep => rfl
  | conn connected => rfl
  | maintain busy =>
    exact (evlog.Log.maintain_ops_iff drv d.log harmed busy).mpr (.inl hlooks)
  | request req a =>
    rcases wsHandler_log drv unspecified pbDecode uninit d req a with hsame | hclear
    · exact congrArg evlog.Log.ops hsame
    · refine (congrArg evlog.Log.ops hclear).trans ?_
      exact (evlog.Log.clear_ops_iff drv d.log harmed a.busy a.nowUs a.reset).mpr (.inl hlooks)

/-! ### A drive -/

/-- **Nothing is set up while the kart is armed.**  Over any part of a run in which the
published status says armed, the configuration and its stored copy, the credentials and the
calibration stay as they are; and no flash operation of the log is issued unless the log finds
the status mutex busy. -/
theorem armed_device_kept {start : Device δ} (h : Reachable drv unspecified pbDecode uninit start)
    (w : Nat → Event) {m n : Nat} (hmn : m ≤ n)
    (harmed : ∀ k, m ≤ k → k < n →
      (deviceAt drv unspecified pbDecode uninit start w k).status.arming = true) :
    (deviceAt drv unspecified pbDecode uninit start w n).settings =
        (deviceAt drv unspecified pbDecode uninit start w m).settings ∧
      ((∀ k, m ≤ k → k < n → (w k).Looks) →
        (deviceAt drv unspecified pbDecode uninit start w n).log.ops =
          (deviceAt drv unspecified pbDecode uninit start w m).log.ops) := by
  induction n, hmn using Nat.le_induction with
  | base => exact ⟨rfl, fun _ => rfl⟩
  | succ n hmn ih =>
    have hbefore := ih fun k hmk hkn => harmed k hmk (Nat.lt_succ_of_lt hkn)
    have hnow := harmed n hmn (Nat.lt_succ_self n)
    rw [deviceAt_succ]
    refine ⟨?_, ?_⟩
    · exact (step_settings (reachable_deviceAt drv unspecified pbDecode uninit h w n) hnow _).trans
        hbefore.1
    · intro hlooks
      exact (step_ops hnow (hlooks n hmn (Nat.lt_succ_self n))).trans
        (hbefore.2 fun k hmk hkn => hlooks k hmk (Nat.lt_succ_of_lt hkn))

end Runs

/-! ### A drive on the bench -/

/-- A kart with a calibrated gamepad, as it comes out of its boot. -/
def calibratedDevice : Device Unit :=
  Device.boot (fun _ => 0) factoryCfg { cfg := factoryCfg, nvs := fun _ => none }
    { ssid := none, pass := none, en := none } { cal := some (0, 0, 1, 1), ok := some 1 } flashOk
    flashOk true (.boot ())

def startHeld : HidReport Float32 := { Input.noReport with start := true }

/-- START is held until the kart arms; then a `set` arrives, and the log has its turn. -/
def armedBench : Nat → Event
  | 0 => .conn true
  | 1 => .data 1 startHeld
  | 2 => .tick 1 2
  | 3 => .data 1500001 startHeld
  | 4 => .tick 1500002 1500003
  | 5 => .request negZeroRequest quietAnswers
  | _ => .maintain false

theorem armed_device_kept_bench :
    (deviceAt noFlash (fun _ => 0) negZeroDecode factoryCfg calibratedDevice armedBench 7).settings =
      (deviceAt noFlash (fun _ => 0) negZeroDecode factoryCfg calibratedDevice armedBench
        5).settings := by
  have harmed : ∀ k < 7, 5 ≤ k →
      (deviceAt noFlash (fun _ => 0) negZeroDecode factoryCfg calibratedDevice armedBench
        k).status.arming = true := by
    decide +kernel
  exact (armed_device_kept (Reachable.boot _ _ _ _ _ _ _) armedBench (by decide)
    (fun k hfrom hto => harmed k hto hfrom)).1

end web

end KartFirmware

import KartFirmware.ConfigRoundTrip
import KartFirmware.Collection

/-!
# Web requests

`wsHandler` of `webserver.cpp`, on the device it acts on: the configuration, the Wi-Fi
credentials, the gamepad with its calibration, the published status and the event log.
The protobuf decoder is a parameter that says which complete pairs it handed to
`decSetParam` and what it made of the body.  Its strings are C strings, one `Char` for
each byte.  The contents of the replies are left out but for the texts of `wifiset`.

A request is one step of a run, as are a control tick, a call of a Bluetooth hook and a
turn of the event log's task: no tick comes between the look that a request takes at the
published status and what that look guards.  (`CollectionSteps` lets one come, for the
commands of the gamepad page.)  What a request changes is decided by its verb and the
published status (`web.requests_scoped`).
-/

set_option linter.unusedSectionVars false

namespace KartFirmware

/-! ### The Wi-Fi credentials -/

/-- The keys `sta_ssid`, `sta_pass` and `sta_en` of the namespace `kart`. -/
structure WifiNvs where
  ssid : Option String
  pass : Option String
  en : Option Nat
deriving DecidableEq

structure WifiNvsResults where
  opens : Bool
  setsSsid : Bool
  setsPass : Bool
  setsEn : Bool

def configSetWifi (w : WifiNvs) (r : WifiNvsResults) (ssid pass : String) (enabled : Bool) :
    WifiNvs :=
  if r.opens then
    { ssid := if r.setsSsid then some ssid else w.ssid
      pass := if r.setsPass then some pass else w.pass
      en := if r.setsEn then some (if enabled then 1 else 0) else w.en }
  else w

namespace web

/-! ### Requests -/

/-- `Req`, without the pairs, which `decSetParam` has taken. -/
structure Req where
  type : String
  ssid : String
  pass : String
  enabled : Bool
deriving DecidableEq

/-- What `pb_decode` does with a body: the complete pairs it came across, in order, and
the request, unless it fails. -/
structure Decoded where
  pairs : List ParamVal
  req : Option Req

inductive Verb where
  | reboot
  | padunpair
  | padpair
  | calstart
  | calfinish
  | calcancel
  | padinfo
  | wifiset
  | wifiget
  | evlog
  | evlogclear
  | vals
  | sysdyn
  | hist
  | set
  | sysinfo
  | status
  | get
deriving DecidableEq

def VERBS : List (String × Verb) :=
  [("reboot", .reboot), ("padunpair", .padunpair), ("padpair", .padpair),
    ("calstart", .calstart), ("calfinish", .calfinish), ("calcancel", .calcancel),
    ("padinfo", .padinfo), ("wifiset", .wifiset), ("wifiget", .wifiget), ("evlog", .evlog),
    ("evlogclear", .evlogclear), ("vals", .vals), ("sysdyn", .sysdyn), ("hist", .hist),
    ("set", .set), ("sysinfo", .sysinfo), ("status", .status)]

/-- Anything else is a `get`. -/
def Verb.of (cmd : String) : Verb := (VERBS.lookup cmd).getD .get

/-- What the handler receives: the method, the length of the frame and its payload;
`none` is a receive that fails. -/
structure WsRequest where
  isGet : Bool
  len : Option Nat
  payload : Option (List UInt8)

def BODY_CAP : Nat := 1024

inductive Reply where
  | ok
  | pad
  | wifi (error : String)
  | evlog
  | vals
  | sysdyn
  | hist
  | sysinfo
  | status
  | config
deriving DecidableEq

/-- `ESP_OK` or `ESP_FAIL` without a frame, or a frame that is sent. -/
inductive WsResult where
  | ok
  | fail
  | reply (r : Reply)
deriving DecidableEq

/-- The clock, the reset reason, the status mutex and what the NVS calls answer. -/
structure Answers where
  nowUs : Int
  reset : UInt32
  busy : Bool
  nvs : NvsResults
  padNvs : PadNvsResults
  wifiNvs : WifiNvsResults

/-! ### The device -/

structure Device (δ : Type) where
  store : ConfigStore
  wifi : WifiNvs
  input : Input Float32
  esp : EspController Float32
  status : KartStatus Float32
  log : evlog.Log δ
  restarted : Bool

section Handler

variable {δ : Type} (drv : evlog.FlashDriver δ) (unspecified : Float32 → Int)
  (pbDecode : List UInt8 → Decoded) (uninit : KartConfig Float32)

/-- Why `wifiset` is refused. -/
def wifiError (armed : Bool) (rq : Req) : Option String :=
  if armed then some "Kart armed: stop and disarm before saving Wi-Fi."
  else if rq.ssid = "" then some "SSID required."
  else if rq.pass = "" then some "Password required: retype it, the page never pre-fills it."
  else if rq.pass.length < 8 then
    some "Password too short: WPA2 requires at least 8 characters."
  else none

/-- What follows the decoding, with the draft it left. -/
def dispatch (d : Device δ) (draft : SetCtx) (rq : Req) (a : Answers) : Device δ × WsResult :=
  let armed := d.status.arming
  match Verb.of rq.type with
  | .reboot => ({ d with restarted := true }, .reply .ok)
  | .padunpair => ({ d with input := d.input.unpair armed a.padNvs }, .reply .pad)
  | .padpair => ({ d with input := d.input.startPairing armed a.padNvs }, .reply .pad)
  | .calstart => ({ d with input := d.input.calStart armed a.nowUs }, .reply .pad)
  | .calfinish => ({ d with input := d.input.calFinish a.nowUs a.padNvs }, .reply .pad)
  | .calcancel => ({ d with input := d.input.calCancel }, .reply .pad)
  | .padinfo => (d, .reply .pad)
  | .wifiset =>
    match wifiError armed rq with
    | some err => (d, .reply (.wifi err))
    | none =>
      ({ d with wifi := configSetWifi d.wifi a.wifiNvs rq.ssid rq.pass rq.enabled },
        .reply (.wifi ""))
  | .wifiget => (d, .reply (.wifi ""))
  | .evlog => (d, .reply .evlog)
  | .evlogclear =>
    ({ d with log := (d.log.clear drv d.status a.busy a.nowUs a.reset).1 }, .reply .evlog)
  | .vals => (d, .reply .vals)
  | .sysdyn => (d, .reply .sysdyn)
  | .hist => (d, .reply .hist)
  | .set =>
    if draft.touched then
      if armed then (d, .reply .vals)
      else
        ({ d with store := configUpdate unspecified d.store a.nvs draft.cfg true }, .reply .vals)
    else (d, .reply .vals)
  | .sysinfo => (d, .reply .sysinfo)
  | .status => (d, .reply .status)
  | .get => (d, .reply .config)

/-- The body that reaches the decoder. -/
def WsRequest.body (req : WsRequest) : Option (List UInt8) :=
  match req.len with
  | none => none
  | some len => if req.isGet ∨ len = 0 ∨ len > BODY_CAP then none else req.payload

def wsHandler (d : Device δ) (req : WsRequest) (a : Answers) : Device δ × WsResult :=
  if req.isGet then (d, .ok)
  else
    match req.len with
    | none => (d, .fail)
    | some len =>
      if len = 0 then (d, .ok)
      else if len > BODY_CAP then (d, .fail)
      else
        match req.payload with
        | none => (d, .fail)
        | some body =>
          let decoded := pbDecode body
          let draft := decoded.pairs.foldl (decSetParam unspecified d.store.cfg)
            { cfg := uninit, touched := false }
          match decoded.req with
          | none => (d, .ok)
          | some rq => dispatch drv unspecified d draft rq a

/-! ### What a request does -/

theorem Verb.mem_of {cmd : String} {v : Verb} (h : Verb.of cmd = v) (hv : v ≠ .get) :
    (cmd, v) ∈ VERBS := by
  unfold Verb.of at h
  cases hfind : VERBS.lookup cmd with
  | none =>
    rw [hfind] at h
    exact absurd h.symm hv
  | some v' =>
    rw [hfind] at h
    obtain ⟨before, after, hsplit, -⟩ := List.lookup_eq_some_iff.mp hfind
    rw [hsplit, ← h]
    simp

theorem Verb.of_eq_set {cmd : String} : Verb.of cmd = .set ↔ cmd = "set" := by
  constructor
  · intro h
    simpa [VERBS] using Verb.mem_of h (by decide)
  · rintro rfl
    decide +kernel

theorem Verb.of_eq_wifiset {cmd : String} : Verb.of cmd = .wifiset ↔ cmd = "wifiset" := by
  constructor
  · intro h
    simpa [VERBS] using Verb.mem_of h (by decide)
  · rintro rfl
    decide +kernel

/-- The verbs that may change the calibration and the pairing. -/
def Verb.isPad : Verb → Bool
  | .padunpair => true
  | .padpair => true
  | .calstart => true
  | .calfinish => true
  | .calcancel => true
  | _ => false

/-- The types of these verbs. -/
def padTypes : List String := ["padunpair", "padpair", "calstart", "calfinish", "calcancel"]

theorem Verb.isPad_of {cmd : String} (h : (Verb.of cmd).isPad = true) : cmd ∈ padTypes := by
  have hmem : (cmd, Verb.of cmd) ∈ VERBS := by
    refine Verb.mem_of rfl ?_
    intro hget
    rw [hget] at h
    exact Bool.noConfusion h
  have hpads : ∀ q ∈ VERBS, q.2.isPad = true → q.1 ∈ padTypes := by decide +kernel
  exact hpads _ hmem h

section Dispatch

variable (d : Device δ) (draft : SetCtx) (rq : Req) (a : Answers)

theorem dispatch_store :
    (dispatch drv unspecified d draft rq a).1.store =
      if rq.type = "set" ∧ draft.touched = true ∧ d.status.arming = false then
        configUpdate unspecified d.store a.nvs draft.cfg true
      else d.store := by
  simp only [← Verb.of_eq_set]
  unfold dispatch
  cases hv : Verb.of rq.type with
  | wifiset =>
    rw [if_neg (by simp)]
    dsimp only
    cases wifiError d.status.arming rq <;> rfl
  | set =>
    cases htouched : draft.touched <;> cases harmed : d.status.arming <;> simp
  | _ =>
    rw [if_neg (by simp)]

theorem dispatch_wifi :
    (dispatch drv unspecified d draft rq a).1.wifi =
      if rq.type = "wifiset" ∧ wifiError d.status.arming rq = none then
        configSetWifi d.wifi a.wifiNvs rq.ssid rq.pass rq.enabled
      else d.wifi := by
  simp only [← Verb.of_eq_wifiset]
  unfold dispatch
  cases hv : Verb.of rq.type with
  | wifiset =>
    dsimp only
    cases wifiError d.status.arming rq <;> simp
  | set =>
    rw [if_neg (by simp)]
    dsimp only
    split_ifs <;> rfl
  | _ =>
    rw [if_neg (by simp)]

theorem dispatch_input (h : (Verb.of rq.type).isPad = false) :
    (dispatch drv unspecified d draft rq a).1.input = d.input := by
  unfold dispatch
  cases hv : Verb.of rq.type with
  | wifiset =>
    dsimp only
    cases wifiError d.status.arming rq <;> rfl
  | set =>
    dsimp only
    split_ifs <;> rfl
  | padunpair | padpair | calstart | calfinish | calcancel =>
    rw [hv] at h
    exact Bool.noConfusion h
  | _ => rfl

theorem dispatch_status : (dispatch drv unspecified d draft rq a).1.status = d.status := by
  unfold dispatch
  cases hv : Verb.of rq.type with
  | wifiset =>
    dsimp only
    cases wifiError d.status.arming rq <;> rfl
  | set =>
    dsimp only
    split_ifs <;> rfl
  | _ => rfl

/-- With the kart armed no verb gets past its guard, and outside a collection the two
verbs without one find nothing to end. -/
theorem dispatch_input_armed (harmed : d.status.arming = true) (hrest : d.input.calState = 0) :
    (dispatch drv unspecified d draft rq a).1.input = d.input := by
  cases hpad : (Verb.of rq.type).isPad with
  | false => exact dispatch_input drv unspecified d draft rq a hpad
  | true =>
    unfold dispatch
    cases hv : Verb.of rq.type with
    | padunpair => exact if_pos harmed
    | padpair => exact if_pos harmed
    | calstart => exact if_pos harmed
    | calfinish => exact if_pos (by rw [hrest]; decide)
    | calcancel =>
      change { d.input with calState := 0 } = d.input
      rw [← hrest]
    | _ => simp [hv, Verb.isPad] at hpad

end Dispatch

/-- What is handed to the decoder, decoded. -/
def WsRequest.received (req : WsRequest) : Option Decoded := req.body.map pbDecode

/-- A request that is not received changes nothing, nor does one that is not decoded;
any other is dispatched. -/
theorem wsHandler_eq (d : Device δ) (req : WsRequest) (a : Answers) :
    match req.received pbDecode with
    | none => (wsHandler drv unspecified pbDecode uninit d req a).1 = d ∧
        ∀ reply, (wsHandler drv unspecified pbDecode uninit d req a).2 ≠ .reply reply
    | some decoded => wsHandler drv unspecified pbDecode uninit d req a =
        match decoded.req with
        | none => (d, .ok)
        | some rq => dispatch drv unspecified d
            (decoded.pairs.foldl (decSetParam unspecified d.store.cfg)
              { cfg := uninit, touched := false }) rq a := by
  unfold WsRequest.received WsRequest.body wsHandler
  cases hlen : req.len with
  | none =>
    dsimp only [Option.map_none]
    split_ifs <;> simp
  | some len =>
    by_cases hget : req.isGet = true
    · simp [hget]
    by_cases hempty : len = 0
    · simp [hget, hempty]
    by_cases hlarge : len > BODY_CAP
    · simp [hget, hempty, hlarge]
    · cases req.payload with
      | none => simp [hget, hempty, hlarge]
      | some body =>
        simp only [hget, hempty, hlarge, if_false, or_self, Option.map_some, Bool.false_eq_true]

/-! ### Runs of the device -/

/-- A tick reads the clock once for the controller and once more for its event. -/
inductive Event where
  | tick (nowUs pushUs : Int)
  | data (nowUs : Int) (rep : HidReport Float32)
  | conn (connected : Bool)
  | maintain (busy : Bool)
  | request (req : WsRequest) (a : Answers)

/-- One control tick, on the configuration and the gamepad as they are. -/
def Device.tick (d : Device δ) (nowUs pushUs : Int) : Device δ :=
  let r := d.esp.tickOnce { input := d.input, cfg := d.store.cfg, nowUs := nowUs }
  { d with
    esp := r.1
    status := r.2.status
    log := match r.2.event with
      | some (ev, data) => d.log.push ev data pushUs
      | none => d.log }

def Device.step (d : Device δ) (e : Event) : Device δ :=
  if d.restarted then d
  else
    match e with
    | .tick nowUs pushUs => d.tick nowUs pushUs
    | .data nowUs rep => { d with input := d.input.onData nowUs rep }
    | .conn connected => { d with input := d.input.onConn connected }
    | .maintain busy => { d with log := d.log.maintain drv d.status busy }
    | .request req a => (wsHandler drv unspecified pbDecode uninit d req a).1

/-- Boot: the configuration and the calibration are loaded, and the status says nothing
yet. -/
def Device.boot (store : ConfigStore) (wifi : WifiNvs) (pad : PadNvs Float32)
    (load save : NvsResults) (padOpens : Bool) (log : evlog.Log δ) : Device δ where
  store := configInit unspecified store load save uninit
  wifi := wifi
  input := (Input.boot pad).calLoad padOpens
  esp := .new (uninit.setDefaults (lround unspecified))
  status := .initial
  log := log
  restarted := false

inductive Reachable : Device δ → Prop
  | boot (store wifi pad load save padOpens log) :
    Reachable (Device.boot unspecified uninit store wifi pad load save padOpens log)
  | step {d : Device δ} (h : Reachable d) (e : Event) :
    Reachable (d.step drv unspecified pbDecode uninit e)

/-- At rest, or collecting with the published status disarmed. -/
def CollectsDisarmed (input : Input Float32) (status : KartStatus Float32) : Prop :=
  input.calState = 0 ∨ input.calState = 1 ∧ status.arming = false

theorem calLoad_calState (input : Input Float32) (opens : Bool) :
    (input.calLoad opens).calState = input.calState := by
  unfold Input.calLoad
  split_ifs <;> rfl

theorem calSave_calState (input : Input Float32) (r : PadNvsResults) :
    (input.calSave r).calState = input.calState := by
  unfold Input.calSave
  split_ifs <;> rfl

theorem calFinish_calState (input : Input Float32) (nowUs : Int) (r : PadNvsResults) :
    (input.calFinish nowUs r).calState = input.calState ∧ input.calState ≠ 1 ∨
      (input.calFinish nowUs r).calState = 0 := by
  simp only [Input.calFinish]
  split_ifs with hidle
  · exact Or.inl ⟨rfl, hidle⟩
  · exact Or.inr rfl
  · right
    rw [calSave_calState]
  · exact Or.inr rfl

/-- A command of the web page leaves the kart at rest or collecting disarmed. -/
theorem CollectsDisarmed.dispatch {d : Device δ} (h : CollectsDisarmed d.input d.status)
    (draft : SetCtx) (rq : Req) (a : Answers) :
    CollectsDisarmed (web.dispatch drv unspecified d draft rq a).1.input d.status := by
  unfold web.dispatch
  cases hv : Verb.of rq.type with
  | padunpair =>
    change CollectsDisarmed (d.input.unpair d.status.arming a.padNvs) d.status
    unfold Input.unpair
    split_ifs
    · exact h
    · refine Or.inl ?_
      have hclear := Input.calClear_calState
        { d.input with connected := false, pairing := false } a.padNvs
      change (if (Input.calClear _ a.padNvs).calState = 1 then 0 else
        (Input.calClear _ a.padNvs).calState) = 0
      rw [hclear]
      rfl
  | padpair =>
    change CollectsDisarmed (d.input.startPairing d.status.arming a.padNvs) d.status
    unfold Input.startPairing
    split_ifs
    · exact h
    · exact Or.inl (Input.calClear_calState _ _)
  | calstart =>
    change CollectsDisarmed (d.input.calStart d.status.arming a.nowUs) d.status
    unfold Input.calStart
    split_ifs with harmed
    · exact h
    · exact h
    · exact Or.inr ⟨rfl, by simpa using harmed⟩
  | calfinish =>
    change CollectsDisarmed (d.input.calFinish a.nowUs a.padNvs) d.status
    rcases calFinish_calState d.input a.nowUs a.padNvs with ⟨hsame, hidle⟩ | hzero
    · rcases h with hrest | hcollects
      · exact Or.inl (hsame.trans hrest)
      · exact absurd hcollects.1 hidle
    · exact Or.inl hzero
  | calcancel => exact Or.inl rfl
  | wifiset =>
    dsimp only
    cases wifiError d.status.arming rq <;> exact h
  | set =>
    dsimp only
    split_ifs <;> exact h
  | _ => exact h

theorem CollectsDisarmed.wsHandler {d : Device δ} (h : CollectsDisarmed d.input d.status)
    (req : WsRequest) (a : Answers) :
    CollectsDisarmed (web.wsHandler drv unspecified pbDecode uninit d req a).1.input
      (web.wsHandler drv unspecified pbDecode uninit d req a).1.status := by
  have heq := wsHandler_eq drv unspecified pbDecode uninit d req a
  cases hreceived : req.received pbDecode with
  | none =>
    simp only [hreceived] at heq
    rw [heq.1]
    exact h
  | some decoded =>
    simp only [hreceived] at heq
    rw [heq]
    cases decoded.req with
    | none => exact h
    | some rq =>
      dsimp only
      rw [dispatch_status]
      exact h.dispatch drv unspecified _ rq a

theorem Reachable.collectsDisarmed {d : Device δ}
    (h : Reachable drv unspecified pbDecode uninit d) : CollectsDisarmed d.input d.status := by
  induction h with
  | boot store wifi pad load save padOpens log => exact Or.inl (calLoad_calState _ _)
  | @step d h e ih =>
    unfold Device.step
    split_ifs with hrestarted
    · exact ih
    cases e with
    | tick nowUs pushUs =>
      rcases ih with hrest | ⟨hcollects, -⟩
      · exact Or.inl hrest
      · exact Or.inr ⟨hcollects, (d.esp.tickOnce_collecting hcollects).1⟩
    | data nowUs rep =>
      have hstate : (d.input.onData nowUs rep).calState = d.input.calState := by
        simp only [Input.onData]
        split_ifs <;> rfl
      exact ih.imp hstate.trans (And.imp_left hstate.trans)
    | conn connected =>
      change CollectsDisarmed (d.input.onConn connected) d.status
      unfold Input.onConn
      cases connected with
      | true => exact ih
      | false =>
        left
        rcases ih with hrest | ⟨hcollects, -⟩ <;> simp [*]
    | maintain busy => exact ih
    | request req a => exact ih.wsHandler drv unspecified pbDecode uninit req a

/-! ### What a request may change -/

section Scope

variable (received : Option Decoded) (status : KartStatus Float32)

/-- A decoded `set` with at least one pair, on a disarmed kart. -/
def SetAccepted : Prop :=
  ∃ decoded rq, received = some decoded ∧ decoded.req = some rq ∧ rq.type = "set" ∧
    decoded.pairs ≠ [] ∧ status.arming = false

/-- A decoded `wifiset` with an SSID and a password of eight characters or more, on a
disarmed kart. -/
def WifiAccepted : Prop :=
  ∃ decoded rq, received = some decoded ∧ decoded.req = some rq ∧ rq.type = "wifiset" ∧
    rq.ssid ≠ "" ∧ 8 ≤ rq.pass.length ∧ status.arming = false

/-- A decoded command of the gamepad page, on a disarmed kart. -/
def PadAccepted : Prop :=
  ∃ decoded rq, received = some decoded ∧ decoded.req = some rq ∧ rq.type ∈ padTypes ∧
    status.arming = false

variable {decoded : Decoded} {rq : Req}

theorem setAccepted_iff (hreq : decoded.req = some rq) :
    SetAccepted (some decoded) status ↔
      rq.type = "set" ∧ decoded.pairs ≠ [] ∧ status.arming = false := by
  simp [SetAccepted, hreq]

theorem wifiError_eq_none {armed : Bool} :
    wifiError armed rq = none ↔ rq.ssid ≠ "" ∧ 8 ≤ rq.pass.length ∧ armed = false := by
  unfold wifiError
  split_ifs with harmed hssid hpass hshort
  · simp [harmed]
  · simp [hssid]
  · simp [hpass]
  · simp [hshort]
  · simp [hssid, Nat.le_of_not_lt hshort, Bool.eq_false_iff.mpr harmed]

theorem wifiAccepted_iff (hreq : decoded.req = some rq) :
    WifiAccepted (some decoded) status ↔
      rq.type = "wifiset" ∧ wifiError status.arming rq = none := by
  simp [WifiAccepted, hreq, wifiError_eq_none]

theorem padAccepted_iff (hreq : decoded.req = some rq) :
    PadAccepted (some decoded) status ↔ rq.type ∈ padTypes ∧ status.arming = false := by
  simp [PadAccepted, hreq]

end Scope

/-- The last value a list of pairs gives to an entry, put in its member. -/
def setLast (unspecified : Float32 → Int) (c : KartConfig Float32) (p : ParamDesc Float32)
    (pairs : List ParamVal) : KartConfig Float32 :=
  match lastValue p.name pairs with
  | some v => cfgSet (lround unspecified) c p v
  | none => c

/-- The pairs are applied in order and the result is clamped, so each member comes from
the last value given to its name; and each entry is stored as its new value, or as a zero
for a zero, as far as the NVS calls succeed. -/
structure Applied (pairs : List ParamVal) (r : NvsResults) (s s' : ConfigStore) : Prop where
  cfg : s'.cfg = (pairs.foldl (setPair unspecified) s.cfg).clampAll (lround unspecified)
  last : ∀ p ∈ (PARAMS : List (ParamDesc Float32)), KartConfig.SameAt p.entry.field s'.cfg
    ((setLast unspecified s.cfg p pairs).clampAll (lround unspecified))
  stored : ∀ p ∈ (PARAMS : List (ParamDesc Float32)), r.opens = true → r.sets p.name = true →
    ∃ v, readFloat s'.nvs p.name = some v ∧
      (v = cfgGet s'.cfg p ∨ (v == 0) = true ∧ (cfgGet s'.cfg p == 0) = true)
  kept : ∀ key, (r.opens = true → r.sets key = true →
    ∀ p ∈ (PARAMS : List (ParamDesc Float32)), key ≠ p.name) → s'.nvs key = s.nvs key

theorem foldl_decSetParam_touched (snapshot : KartConfig Float32) (pairs : List ParamVal) :
    (pairs.foldl (decSetParam unspecified snapshot) { cfg := uninit, touched := false }).touched =
      true ↔ pairs ≠ [] := by
  cases pairs with
  | nil => simp
  | cons pv pvs =>
    have hkeeps : ∀ (l : List ParamVal) (ctx : SetCtx), ctx.touched = true →
        (l.foldl (decSetParam unspecified snapshot) ctx).touched = true := by
      intro l
      induction l with
      | nil => exact fun ctx h => h
      | cons q l ih =>
        rintro ⟨c, t⟩ rfl
        rw [List.foldl_cons, decSetParam_touched]
        exact ih _ rfl
    have hfirst : decSetParam unspecified snapshot { cfg := uninit, touched := false } pv =
        decSetParam unspecified snapshot { cfg := snapshot, touched := true } pv := rfl
    rw [List.foldl_cons, hfirst, decSetParam_touched]
    exact iff_of_true (hkeeps pvs _ rfl) (List.cons_ne_nil pv pvs)

theorem foldl_decSetParam_cfg (snapshot : KartConfig Float32) {pairs : List ParamVal}
    (h : pairs ≠ []) :
    (pairs.foldl (decSetParam unspecified snapshot) { cfg := uninit, touched := false }).cfg =
      pairs.foldl (setPair unspecified) snapshot := by
  cases pairs with
  | nil => exact absurd rfl h
  | cons pv pvs => exact draft_eq_foldl unspecified snapshot uninit pv pvs

/-- After a list of pairs a member is what the last value for its entry makes of it. -/
theorem foldl_setPair_sameAt {p : ParamDesc Float32}
    (hp : p ∈ (PARAMS : List (ParamDesc Float32))) (c : KartConfig Float32)
    (pairs : List ParamVal) :
    KartConfig.SameAt p.entry.field (pairs.foldl (setPair unspecified) c)
      (setLast unspecified c p pairs) := by
  induction pairs using List.reverseRecOn with
  | nil => exact KartConfig.SameAt.refl _ c
  | append_singleton l q ih =>
    rw [List.foldl_append, List.foldl_cons, List.foldl_nil]
    have hlast := lastValue_append p.name l q
    by_cases hname : q.name = p.name
    · rw [if_pos hname] at hlast
      cases hval : q.float with
      | none =>
        rw [hval, Option.none_or] at hlast
        have hskip : setPair unspecified (l.foldl (setPair unspecified) c) q =
            l.foldl (setPair unspecified) c := by
          rw [setPair, hval]
        rw [hskip, setLast, hlast]
        exact ih
      | some v =>
        rw [hval, Option.some_or] at hlast
        rw [setPair_of_name unspecified hp _ hname hval, setLast, hlast]
        exact cfgSet_local (lround unspecified) _ c p v
    · rw [if_neg hname] at hlast
      have hother : KartConfig.SameAt p.entry.field
          (setPair unspecified (l.foldl (setPair unspecified) c) q)
          (l.foldl (setPair unspecified) c) := setPair_frame unspecified hp _ hname
      rw [setLast, hlast]
      exact hother.trans ih

theorem configUpdate_applied (s : ConfigStore) (r : NvsResults) (pairs : List ParamVal) :
    Applied unspecified pairs r s
      (configUpdate unspecified s r (pairs.foldl (setPair unspecified) s.cfg) true) := by
  have hcfg := configUpdate_cfg unspecified s r (pairs.foldl (setPair unspecified) s.cfg) true
  refine ⟨hcfg, fun p hp => ?_, fun p hp hopens hsets => ?_, fun key hkey => ?_⟩
  · rw [hcfg]
    exact foldl_congr (clampParam_turn (lround unspecified)) fields_nodup hp
      (foldl_setPair_sameAt unspecified hp s.cfg pairs)
  · rw [hcfg]
    rw [configUpdate_nvs, if_pos hopens, readFloat, foldl_saveParam r _ names_nodup hp]
    obtain ⟨v, hread, hv⟩ := readFloat_writeFloat r s.nvs p.name
      (cfgGet ((pairs.foldl (setPair unspecified) s.cfg).clampAll (lround unspecified)) p) hsets
    exact ⟨v, hread, hv.elim Or.inl Binary32.eq_or_zero_of_beq⟩
  · rw [configUpdate_nvs]
    split_ifs with hopens
    · exact foldl_saveParam_kept r _ (fun p hp hsets => hkey hopens hsets p hp) s.nvs
    · rfl

/-- What a request may change: the configuration by an accepted `set`, the credentials by
an accepted `wifiset`, calibration and pairing by an accepted command of the gamepad page;
a body that is not decoded changes nothing and is not answered. -/
structure Scoped (d : Device δ) (req : WsRequest) (a : Answers) : Prop where
  set : SetAccepted (req.received pbDecode) d.status →
    ∀ decoded, req.received pbDecode = some decoded → Applied unspecified decoded.pairs a.nvs
      d.store (wsHandler drv unspecified pbDecode uninit d req a).1.store
  store : ¬ SetAccepted (req.received pbDecode) d.status →
    (wsHandler drv unspecified pbDecode uninit d req a).1.store = d.store
  wifiset : WifiAccepted (req.received pbDecode) d.status →
    ∀ decoded rq, req.received pbDecode = some decoded → decoded.req = some rq →
      (wsHandler drv unspecified pbDecode uninit d req a).1.wifi =
        configSetWifi d.wifi a.wifiNvs rq.ssid rq.pass rq.enabled
  wifi : ¬ WifiAccepted (req.received pbDecode) d.status →
    (wsHandler drv unspecified pbDecode uninit d req a).1.wifi = d.wifi
  pad : ¬ PadAccepted (req.received pbDecode) d.status →
    (wsHandler drv unspecified pbDecode uninit d req a).1.input = d.input
  undecoded : (∀ decoded, req.received pbDecode = some decoded → decoded.req = none) →
    (wsHandler drv unspecified pbDecode uninit d req a).1 = d ∧
      ∀ reply, (wsHandler drv unspecified pbDecode uninit d req a).2 ≠ .reply reply

variable {drv unspecified pbDecode uninit} in
/-- **A request changes what its verb is for, as a whole, and on a disarmed kart.** -/
theorem requests_scoped {d : Device δ} (h : Reachable drv unspecified pbDecode uninit d)
    (req : WsRequest) (a : Answers) : Scoped drv unspecified pbDecode uninit d req a := by
  have heq := wsHandler_eq drv unspecified pbDecode uninit d req a
  cases hreceived : req.received pbDecode with
  | none =>
    simp only [hreceived] at heq
    constructor <;> rw [hreceived]
    · rintro - decoded ⟨⟩
    · exact fun _ => by rw [heq.1]
    · rintro - decoded rq ⟨⟩
    · exact fun _ => by rw [heq.1]
    · exact fun _ => by rw [heq.1]
    · exact fun _ => heq
  | some decoded =>
    simp only [hreceived] at heq
    cases hreq : decoded.req with
    | none =>
      simp only [hreq] at heq
      constructor <;> rw [hreceived, heq]
      · rintro ⟨_, rq, ⟨⟩, hsome, -⟩
        exact absurd (hreq.symm.trans hsome) (Option.some_ne_none rq).symm
      · exact fun _ => rfl
      · rintro ⟨_, rq, ⟨⟩, hsome, -⟩
        exact absurd (hreq.symm.trans hsome) (Option.some_ne_none rq).symm
      · exact fun _ => rfl
      · exact fun _ => rfl
      · exact fun _ => ⟨rfl, fun reply => by simp⟩
    | some rq =>
      simp only [hreq] at heq
      have hset := setAccepted_iff d.status hreq
      have hwifi := wifiAccepted_iff d.status hreq
      have hpad := padAccepted_iff d.status hreq
      constructor <;> rw [hreceived, heq]
      · rintro haccepted _ ⟨⟩
        obtain ⟨htype, hpairs, harmed⟩ := hset.mp haccepted
        rw [dispatch_store, if_pos ⟨htype, (foldl_decSetParam_touched _ _ _ _).mpr hpairs, harmed⟩,
          foldl_decSetParam_cfg unspecified uninit d.store.cfg hpairs]
        exact configUpdate_applied unspecified d.store a.nvs decoded.pairs
      · intro hrefused
        rw [hset] at hrefused
        rw [dispatch_store, if_neg]
        rintro ⟨htype, htouched, harmed⟩
        exact hrefused ⟨htype, (foldl_decSetParam_touched _ _ _ _).mp htouched, harmed⟩
      · rintro haccepted _ rq' ⟨⟩ hrq'
        obtain rfl : rq = rq' := Option.some.inj (hreq.symm.trans hrq')
        rw [dispatch_wifi, if_pos (hwifi.mp haccepted)]
      · intro hrefused
        rw [dispatch_wifi, if_neg fun hboth => hrefused (hwifi.mpr hboth)]
      · intro hrefused
        rw [hpad] at hrefused
        cases harmed : d.status.arming with
        | true =>
          -- an armed kart is not collecting, so no verb finds anything to do
          rcases h.collectsDisarmed with hrest | ⟨-, hdisarmed⟩
          · exact dispatch_input_armed drv unspecified d _ rq a harmed hrest
          · rw [harmed] at hdisarmed
            exact Bool.noConfusion hdisarmed
        | false =>
          refine dispatch_input drv unspecified d _ rq a ?_
          cases hverb : (Verb.of rq.type).isPad with
          | true => exact absurd ⟨Verb.isPad_of hverb, harmed⟩ hrefused
          | false => rfl
      · intro hundecoded
        exact absurd (hreq.symm.trans (hundecoded decoded rfl)) (Option.some_ne_none rq)

end Handler

/-! ### A zero that is not stored -/

/-- The bytes of a `set` of `thr_deadzone` to -0. -/
def negZeroBody : List UInt8 :=
  [0x0A, 0x03, 0x73, 0x65, 0x74, 0x2A, 0x13, 0x0A, 0x0C, 0x74, 0x68, 0x72, 0x5F, 0x64, 0x65, 0x61,
    0x64, 0x7A, 0x6F, 0x6E, 0x65, 0x25, 0x00, 0x00, 0x00, 0x80]

/-- A decoder that knows this one body. -/
def negZeroDecode (body : List UInt8) : Decoded :=
  if body = negZeroBody then
    { pairs := [{ name := "thr_deadzone", value := .fval (-0) }],
      req := some { type := "set", ssid := "", pass := "", enabled := false } }
  else { pairs := [], req := none }

def negZeroRequest : WsRequest where
  isGet := false
  len := some negZeroBody.length
  payload := some negZeroBody

def quietAnswers : Answers where
  nowUs := 0
  reset := 0
  busy := false
  nvs := flashOk
  padNvs := { opens := true, setsBlob := true, setsOk := true }
  wifiNvs := { opens := true, setsSsid := true, setsPass := true, setsEn := true }

def noFlash : evlog.FlashDriver Unit where
  read _ _ := none
  write _ _ _ := (false, ())
  erase _ _ _ := (false, ())

/-- A kart whose dead zone is stored as 0, as it comes out of its boot. -/
def zeroDevice : Device Unit :=
  Device.boot (fun _ => 0) factoryCfg
    { cfg := factoryCfg,
      nvs := fun key => if key = "thr_deadzone" then some (encodeFloat 0) else none }
    { ssid := none, pass := none, en := none } { cal := none, ok := none } flashOk flashOk true
    (.boot ())

/-- The request is accepted and every NVS call succeeds; the new dead zone is -0, and what
is stored is still 0. -/
theorem stored_zero_differs :
    Reachable noFlash (fun _ => 0) negZeroDecode factoryCfg zeroDevice ∧
      SetAccepted (negZeroRequest.received negZeroDecode) zeroDevice.status ∧
      ¬ ∃ v, readFloat (wsHandler noFlash (fun _ => 0) negZeroDecode factoryCfg zeroDevice
          negZeroRequest quietAnswers).1.store.nvs "thr_deadzone" = some v ∧
        v = (wsHandler noFlash (fun _ => 0) negZeroDecode factoryCfg zeroDevice
          negZeroRequest quietAnswers).1.store.cfg.thrDeadzone := by
  refine ⟨Reachable.boot _ _ _ _ _ _ _, ?_, ?_⟩
  · exact ⟨_, _, rfl, rfl, rfl, List.cons_ne_nil _ _, rfl⟩
  · rintro ⟨v, hread, rfl⟩
    have hbits := congrArg (Option.map Float32.toBits) hread
    revert hbits
    decide +kernel

theorem requests_scoped_zeroDevice :
    Scoped noFlash (fun _ => 0) negZeroDecode factoryCfg zeroDevice negZeroRequest quietAnswers :=
  requests_scoped (Reachable.boot _ _ _ _ _ _ _) negZeroRequest quietAnswers

end web

end KartFirmware

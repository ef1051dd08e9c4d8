import KartFirmware.WebFrames

/-!
# The credentials of the station

`configGetWifi` of `config.cpp` with its buffers, and what `wifiSoftAPInit` of
`webserver.cpp` makes of the credentials at the next boot: an access point alone, or with a
station.  They are written by requests, which arrive as bytes between control ticks,
reports and everything else that the device does.

The station joins the network of the last `wifiset` that was accepted, byte for byte: the
array that the decoder fills, the stored string, the buffer that it is read into and the
driver's field have the same room (`station_joins_last`).
-/

namespace KartFirmware

/-! ### Reading them back -/

/-- `nvs_get_str`: a string without room in the buffer is not read. -/
def nvsGetStr (stored : Option String) (size : Nat) : Option String :=
  stored.filter fun text => text.length < size

structure WifiRead where
  ssid : String
  pass : String
  enabled : Bool
  configured : Bool

/-- `configGetWifi`, without a password when there is no buffer for it. -/
def configGetWifi (w : WifiNvs) (opens : Bool) (ssidSize : Nat) (passSize : Option Nat) :
    WifiRead :=
  if opens then
    let ssid := nvsGetStr w.ssid ssidSize
    let pass := passSize.bind (nvsGetStr w.pass)
    let en := w.en.getD 0
    { ssid := ssid.getD ""
      pass := pass.getD ""
      enabled := en ≠ 0
      configured := ssid.isSome && ssid.getD "" ≠ "" && en ≠ 0 }
  else { ssid := "", pass := "", enabled := false, configured := false }

/-- `strncpy` into a field that was zero. -/
def strncpy (src : String) (size : Nat) : String := String.ofList (src.toList.take size)

structure StationConfig where
  ssid : String
  password : String
deriving DecidableEq

namespace web

/-- `wifiSoftAPInit`: the configuration of the station in mode `APSTA`, or `AP` alone. -/
def wifiSoftAPInit (w : WifiNvs) (opens : Bool) : Option StationConfig :=
  let read := configGetWifi w opens 33 (some 65)
  if read.configured then
    some { ssid := strncpy read.ssid 32, password := strncpy read.pass 64 }
  else none

theorem nvsGetStr_of_lt {text : String} {size : Nat} (h : text.length < size) :
    nvsGetStr (some text) size = some text := by
  simp [nvsGetStr, h]

theorem strncpy_of_le {text : String} {size : Nat} (h : text.length ≤ size) :
    strncpy text size = text := by
  rw [strncpy, List.take_of_length_le (by rwa [String.length_toList]), String.ofList_toList]

/-- What `wifiset` has stored. -/
def stored (rq : Req) : WifiNvs where
  ssid := some rq.ssid
  pass := some rq.pass
  en := some (if rq.enabled then 1 else 0)

/-- Nothing is cut off on the way to the driver. -/
theorem wifiSoftAPInit_stored {rq : Req} (hssid : rq.ssid.length < 33) (hpass : rq.pass.length < 65)
    (hne : rq.ssid ≠ "") :
    wifiSoftAPInit (stored rq) true =
      if rq.enabled then some { ssid := rq.ssid, password := rq.pass } else none := by
  have hread : configGetWifi (stored rq) true 33 (some 65) =
      { ssid := rq.ssid, pass := rq.pass, enabled := rq.enabled, configured := rq.enabled } := by
    simp only [configGetWifi, stored, if_true, Option.bind_some, nvsGetStr_of_lt hssid,
      nvsGetStr_of_lt hpass, Option.getD_some, Option.isSome_some, Bool.true_and]
    by_cases hen : rq.enabled = true
    · simp [hen, hne]
    · simp [hen]
  rw [wifiSoftAPInit, hread]
  dsimp only
  rw [strncpy_of_le (by omega), strncpy_of_le (by omega)]

/-! ### Runs -/

section Runs

variable {δ : Type} (drv : evlog.FlashDriver δ) (unspecified : Float32 → Int)
  (uninit : KartConfig Float32)

def Device.run (d : Device δ) (events : List Event) : Device δ :=
  events.foldl (fun d e => d.step drv unspecified decodeReq uninit e) d

/-- The request that an event is, if its body is decoded. -/
def requestAt (d : Device δ) : Event → Option (Req × Answers)
  | .request req a =>
    if d.restarted then none
    else ((req.received decodeReq).bind Decoded.req).map fun rq => (rq, a)
  | _ => none

/-- A `wifiset` that is not refused. -/
def acceptedAt (d : Device δ) (e : Event) : Option (Req × Answers) :=
  (requestAt d e).filter fun p =>
    p.1.type = "wifiset" ∧ wifiError d.status.arming p.1 = none

/-- The requests that are accepted in a run, in order. -/
def accepted (d : Device δ) : List Event → List Req
  | [] => []
  | e :: events =>
    ((acceptedAt d e).map Prod.fst).toList ++
      accepted (d.step drv unspecified decodeReq uninit e) events

/-- Every NVS call of a request for the credentials succeeds. -/
def WifiNvsOk : Event → Prop
  | .request _ a => a.wifiNvs = { opens := true, setsSsid := true, setsPass := true, setsEn := true }
  | _ => True

theorem step_wifi (d : Device δ) (e : Event) :
    (d.step drv unspecified decodeReq uninit e).wifi =
      match acceptedAt d e with
      | some (rq, a) => configSetWifi d.wifi a.wifiNvs rq.ssid rq.pass rq.enabled
      | none => d.wifi := by
  unfold Device.step acceptedAt requestAt
  by_cases hrestarted : d.restarted = true
  · rw [if_pos hrestarted]
    cases e <;> simp [hrestarted]
  · rw [if_neg hrestarted]
    cases e with
    | request req a =>
      dsimp only
      rw [if_neg hrestarted]
      have heq := wsHandler_eq drv unspecified decodeReq uninit d req a
      cases hreceived : req.received decodeReq with
      | none =>
        simp only [hreceived] at heq
        simp [heq.1]
      | some decoded =>
        simp only [hreceived] at heq
        rw [heq]
        cases hreq : decoded.req with
        | none => simp [hreq]
        | some rq =>
          simp only [hreq, Option.bind_some, Option.map_some]
          rw [dispatch_wifi]
          by_cases haccepted : rq.type = "wifiset" ∧ wifiError d.status.arming rq = none
          · rw [if_pos haccepted, Option.filter_some, if_pos (by simpa using haccepted)]
          · rw [if_neg haccepted, Option.filter_some, if_neg (by simpa using haccepted)]
    | _ => rfl

/-- An accepted request came as a body and passed the checks. -/
theorem acceptedAt_eq_some {d : Device δ} {e : Event} {rq : Req} {a : Answers}
    (h : acceptedAt d e = some (rq, a)) :
    ∃ req body, e = .request req a ∧ (decodeReq body).req = some rq ∧
      wifiError d.status.arming rq = none := by
  unfold acceptedAt at h
  obtain ⟨hrequest, hguard⟩ := Option.filter_eq_some_iff.mp h
  obtain ⟨-, herror⟩ : rq.type = "wifiset" ∧ wifiError d.status.arming rq = none := by
    simpa using hguard
  cases e with
  | request req a =>
    simp only [requestAt] at hrequest
    split_ifs at hrequest with hrestarted
    obtain ⟨rq', hdecoded, hpair⟩ := Option.map_eq_some_iff.mp hrequest
    obtain ⟨rfl, rfl⟩ := Prod.mk.inj hpair
    obtain ⟨decoded, hreceived, hreq⟩ := Option.bind_eq_some_iff.mp hdecoded
    obtain ⟨body, -, rfl⟩ := Option.map_eq_some_iff.mp hreceived
    exact ⟨req, body, rfl, hreq, herror⟩
  | _ => simp [requestAt] at hrequest

/-- What comes out of the decoder has room everywhere. -/
theorem acceptedAt_fits {d : Device δ} {e : Event} {rq : Req} {a : Answers}
    (h : acceptedAt d e = some (rq, a)) :
    rq.ssid ≠ "" ∧ rq.ssid.length < 33 ∧ 8 ≤ rq.pass.length ∧ rq.pass.length < 65 := by
  obtain ⟨req, body, -, hreq, herror⟩ := acceptedAt_eq_some h
  obtain ⟨hssid, hpass, -⟩ := wifiError_eq_none.mp herror
  have hfits := reqFits_of_decodeReq hreq
  exact ⟨hssid, hfits.ssid.length, hpass, hfits.pass.length⟩

/-- What is stored after a run is what the last accepted request asked for. -/
theorem run_wifi {events : List Event} (hok : ∀ e ∈ events, WifiNvsOk e) (d : Device δ) :
    (d.run drv unspecified uninit events).wifi =
      match (accepted drv unspecified uninit d events).getLast? with
      | some rq => stored rq
      | none => d.wifi := by
  induction events generalizing d with
  | nil => rfl
  | cons e events ih =>
    have hrest := ih (fun e' he' => hok e' (List.mem_cons_of_mem e he'))
      (d.step drv unspecified decodeReq uninit e)
    rw [Device.run, List.foldl_cons]
    change (Device.run _ _ _ _ events).wifi = _
    rw [hrest, accepted, List.getLast?_append]
    cases hlater : (accepted drv unspecified uninit
        (d.step drv unspecified decodeReq uninit e) events).getLast? with
    | some rq => rfl
    | none =>
      rw [Option.none_or]
      dsimp only
      rw [step_wifi]
      cases haccepted : acceptedAt d e with
      | none => rfl
      | some p =>
        obtain ⟨rq, a⟩ := p
        obtain ⟨req, body, rfl, -, -⟩ := acceptedAt_eq_some haccepted
        have hnvs : a.wifiNvs = _ := hok _ List.mem_cons_self
        simp only [Option.map_some, Option.toList_some, List.getLast?_singleton, hnvs]
        rfl

theorem mem_accepted {events : List Event} {d : Device δ} {rq : Req}
    (h : rq ∈ accepted drv unspecified uninit d events) :
    rq.ssid ≠ "" ∧ rq.ssid.length < 33 ∧ 8 ≤ rq.pass.length ∧ rq.pass.length < 65 := by
  induction events generalizing d with
  | nil => exact absurd h List.not_mem_nil
  | cons e events ih =>
    rcases List.mem_append.mp h with hfirst | hlater
    · simp only [Option.mem_toList, Option.map_eq_some_iff] at hfirst
      obtain ⟨⟨rq', a⟩, haccepted, rfl⟩ := hfirst
      exact acceptedAt_fits haccepted
    · exact ih hlater

/-- **The station joins the network of the last accepted request, byte for byte, and none
after a request that switched it off; what was refused or not decoded has no part in it.** -/
theorem station_joins_last (events : List Event) (hok : ∀ e ∈ events, WifiNvsOk e)
    (d : Device δ) :
    wifiSoftAPInit (d.run drv unspecified uninit events).wifi true =
        (match (accepted drv unspecified uninit d events).getLast? with
        | some rq => if rq.enabled then some { ssid := rq.ssid, password := rq.pass } else none
        | none => wifiSoftAPInit d.wifi true) ∧
      ∀ rq ∈ accepted drv unspecified uninit d events,
        rq.ssid ≠ "" ∧ rq.ssid.length ≤ 32 ∧ 8 ≤ rq.pass.length ∧ rq.pass.length ≤ 64 := by
  constructor
  · rw [run_wifi drv unspecified uninit hok]
    cases hlast : (accepted drv unspecified uninit d events).getLast? with
    | none => rfl
    | some rq =>
      obtain ⟨hne, hssid, -, hpass⟩ :=
        mem_accepted drv unspecified uninit (List.mem_of_getLast? hlast)
      exact wifiSoftAPInit_stored hssid hpass hne
  · intro rq hrq
    obtain ⟨hne, hssid, hshort, hpass⟩ := mem_accepted drv unspecified uninit hrq
    exact ⟨hne, by omega, hshort, by omega⟩

end Runs

/-! ### Two networks -/

def wifiset (ssid pass : String) : Event :=
  .request (frame (encodeReq [.type (textBytes "wifiset"), .ssid (textBytes ssid),
    .pass (textBytes pass), .enabled true])) quietAnswers

/-- The network `home`; then `barn`, whose password is too short at first. -/
def twoNetworks : List Event :=
  [wifiset "home" "12345678", .tick 1 2, wifiset "barn" "8765432", .conn true,
    .data 3 Input.noReport, wifiset "barn" "87654321", .maintain false]

theorem station_joins_barn :
    wifiSoftAPInit (zeroDevice.run noFlash (fun _ => 0) factoryCfg twoNetworks).wifi true =
      some { ssid := "barn", password := "87654321" } := by
  have hok : ∀ e ∈ twoNetworks, WifiNvsOk e := by
    simp [twoNetworks, wifiset, WifiNvsOk, quietAnswers]
  have haccepted : (accepted noFlash (fun _ => 0) factoryCfg zeroDevice twoNetworks).getLast? =
      some { type := "wifiset", ssid := "barn", pass := "87654321", enabled := true } := by
    decide +kernel
  have hlast := (station_joins_last noFlash (fun _ => 0) factoryCfg twoNetworks hok zeroDevice).1
  rw [haccepted] at hlast
  exact hlast

end web

end KartFirmware

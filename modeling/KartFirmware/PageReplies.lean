import KartFirmware.Controller
import KartFirmware.EvlogReply
import KartFirmware.HistoryChart
import KartFirmware.LinkQuality
import KartFirmware.PbFields
import KartFirmware.WebFrames

/-!
# The replies on the page

The descriptor of `index.html` and `pbDecode`, with which the page reads the frames of the
firmware, and the replies of the firmware that are structs: the status, the gamepad, the
Wi-Fi and the two of the system tab.  The page declares the messages a second time, its
enumerations as integers, and reads them with a decoder of its own.

Whatever a reply says, the page sees it (`page_reads_reply`): it decodes each frame that the
firmware sends to the object with exactly the values that went into it.
-/

namespace KartFirmware

def State.code : State → UInt32
  | .lockout => 0
  | .calibrate => 1
  | .run => 2

def BrakeMode.code : BrakeMode → UInt32
  | .none => 0
  | .dynamic => 1
  | .coast => 2

namespace web

open PbDecode (Value WireField)
open PbJs ProtoEncode PbFields

/-! ### The page -/

namespace page

def ParamVal : Descriptor :=
  [(1, .ofString "name"), (2, (Field.ofBool "bval").inOneof),
    (3, (Field.ofInt "ival" int32).inOneof), (4, (Field.ofFloat "fval").inOneof)]

def Status : Descriptor :=
  [(1, .ofInt "state" int32), (11, .ofFloat "fwd"), (12, .ofFloat "turn"), (13, .ofFloat "out_l"),
    (14, .ofFloat "out_r"), (15, .ofInt "brake_mode" int32), (16, .ofBool "arming"),
    (17, .ofBool "btn_start"), (18, .ofBool "pad_conn"), (19, .ofInt "pad_batt" int32),
    (20, .ofFloat "pad_x"), (21, .ofFloat "pad_y"), (22, .ofFloat "pad_cx"),
    (23, .ofFloat "pad_cy"), (24, .ofFloat "pad_zl"), (25, .ofFloat "pad_zr"),
    (26, .ofFloat "pad_rx2"), (27, .ofFloat "pad_ry2"), (28, .ofUint32 "pad_btns"),
    (29, .ofInt "pad_age_ms" int32), (31, .ofBool "btn_drive"), (32, .ofInt "stop" int32)]

def ParamMeta : Descriptor :=
  [(1, .ofString "name"), (2, .ofString "desc"), (3, .ofString "cat"), (4, .ofString "help"),
    (8, (Field.ofBool "bval").inOneof), (9, (Field.ofInt "ival" int32).inOneof),
    (10, (Field.ofFloat "fval").inOneof), (11, (Field.ofBool "bmin").inOneof),
    (12, (Field.ofInt "imin" int32).inOneof), (13, (Field.ofFloat "fmin").inOneof),
    (14, (Field.ofBool "bmax").inOneof), (15, (Field.ofInt "imax" int32).inOneof),
    (16, (Field.ofFloat "fmax").inOneof), (17, (Field.ofBool "bdef").inOneof),
    (18, (Field.ofInt "idef" int32).inOneof), (19, (Field.ofFloat "fdef").inOneof)]

def Config : Descriptor := [(1, .ofMessages "params" ParamMeta)]

def Vals : Descriptor := [(1, .ofMessages "params" ParamVal)]

def Hist : Descriptor :=
  [(1, .ofUint32 "dt_fast"), (4, .ofBytes "accel"), (5, .ofBytes "pwml"), (6, .ofBytes "pwmr"),
    (11, .ofBytes "loop")]

def Pad : Descriptor :=
  [(1, .ofBool "conn"), (2, .ofString "name"), (3, .ofInt "batt" int32), (4, .ofBool "calibrated"),
    (5, .ofInt "calstate" int32), (6, .ofBool "pairing")]

def Wifi : Descriptor :=
  [(1, .ofBool "enabled"), (2, .ofString "ssid"), (3, .ofBool "connected"), (4, .ofString "ip"),
    (5, .ofString "error")]

def Ip6 : Descriptor := [(1, .ofString "addr"), (2, .ofString "type")]

def SysInfo : Descriptor :=
  [(1, .ofString "fw_ver"), (2, .ofString "fw_proj"), (3, .ofString "fw_date"),
    (4, .ofString "idf"), (5, .ofString "chip"), (6, .ofInt "cores" int32),
    (7, .ofInt "rev" int32), (8, .ofUint32 "flash_mb"), (9, .ofInt "uptime_s" int64),
    (10, .ofUint32 "heap_free"), (11, .ofUint32 "heap_min"), (12, .ofString "reset"),
    (13, .ofString "mac_ap"), (14, .ofString "mac_sta"), (15, .ofString "ap_ssid"),
    (16, .ofString "ip_ap"), (17, .ofBool "sta_en"), (18, .ofString "sta_ssid"),
    (19, .ofBool "sta_conn"), (20, .ofString "ip_sta"), (21, .ofMessages "ip6_ap" Ip6),
    (22, .ofMessages "ip6_sta" Ip6), (23, .ofString "mdns")]

def SysDyn : Descriptor :=
  [(1, .ofInt "uptime_s" int64), (2, .ofUint32 "heap_free"), (3, .ofUint32 "heap_min"),
    (4, .ofUint32 "ledc_fix"), (5, .ofUint32 "loop_max_us"), (7, .ofUint32 "pad_gap_max_ms"),
    (8, .ofUint32 "pad_gap_le15"), (9, .ofUint32 "pad_gap_le30"), (10, .ofUint32 "pad_gap_le60"),
    (11, .ofUint32 "pad_gap_le120"), (12, .ofUint32 "pad_gap_le250"),
    (13, .ofUint32 "pad_gap_over"), (14, .ofUint32 "ap_sta"), (15, .ofInt "sta_rssi" sint32)]

def Ok : Descriptor := []

def EvlogEntry : Descriptor :=
  [(1, .ofUint32 "t_ms"), (2, .ofUint32 "boot"), (3, .ofUint32 "code"), (4, .ofUint32 "data")]

def Evlog : Descriptor :=
  [(1, .ofMessages "ev" EvlogEntry), (2, .ofUint32 "total"), (3, .ofUint32 "pending")]

def Msg : Descriptor :=
  [(1, .ofMessage "status" Status), (2, .ofMessage "config" Config), (3, .ofMessage "vals" Vals),
    (4, .ofMessage "hist" Hist), (5, .ofMessage "pad" Pad), (6, .ofMessage "wifi" Wifi),
    (7, .ofMessage "sysinfo" SysInfo), (8, .ofMessage "sysdyn" SysDyn), (9, .ofMessage "ok" Ok),
    (10, .ofMessage "evlog" Evlog)]

/-- `pbDecode`: the member of `body` that was set last, with its name. -/
def pbDecode (buf : List UInt8) : Except Thrown (Option (String × Js)) :=
  (PbJs.decode Msg buf).map fun env => env.getLast?

end page

/-! ### The firmware -/

def floatField (number : UInt32) (name : String) (v : Float32) : StructField :=
  ⟨number, name, .singular, .float v.toBits⟩

def boolField (number : UInt32) (name : String) (b : Bool) : StructField :=
  ⟨number, name, .singular, .bool b⟩

def uintField (number : UInt32) (name : String) (w : UInt32) : StructField :=
  ⟨number, name, .singular, .uint32 w⟩

def intField (number : UInt32) (name : String) (i : Int32) : StructField :=
  ⟨number, name, .singular, .int32 i⟩

def stringField (number : UInt32) (name : String) (utf8 : Chars) : StructField :=
  ⟨number, name, .singular, .string utf8⟩

/-- `Status`, as `buildStatusPb` fills it, with the battery of the gamepad and the age of its
last report in µs. -/
def statusFields (s : KartStatus Float32) (padBatt : Int32) (ageUs : Int) : List StructField :=
  [⟨1, "state", .singular, .uenum s.state.code⟩, floatField 11 "fwd" s.fwd,
    floatField 12 "turn" s.turn, floatField 13 "out_l" s.outL, floatField 14 "out_r" s.outR,
    ⟨15, "brake_mode", .singular, .uenum s.brakeMode.code⟩,
    boolField 16 "arming" s.arming, boolField 17 "btn_start" s.btnStart,
    boolField 18 "pad_conn" s.padConn, intField 19 "pad_batt" padBatt,
    floatField 20 "pad_x" s.padX, floatField 21 "pad_y" s.padY, floatField 22 "pad_cx" s.padCx,
    floatField 23 "pad_cy" s.padCy, floatField 24 "pad_zl" s.padZl, floatField 25 "pad_zr" s.padZr,
    floatField 26 "pad_rx2" s.padRx2, floatField 27 "pad_ry2" s.padRy2,
    uintField 28 "pad_btns" (UInt32.ofNat s.padBtns),
    intField 29 "pad_age_ms" (Int32.ofInt (min (ageUs.tdiv 1000) 99999)),
    boolField 31 "btn_drive" s.btnDrive, ⟨32, "stop", .singular, .uenum s.stop.code⟩]

structure Pad where
  conn : Bool
  name : Chars
  batt : Int32
  calibrated : Bool
  calstate : Int32
  pairing : Bool

def padFields (p : Pad) : List StructField :=
  [boolField 1 "conn" p.conn, stringField 2 "name" p.name, intField 3 "batt" p.batt,
    boolField 4 "calibrated" p.calibrated, intField 5 "calstate" p.calstate,
    boolField 6 "pairing" p.pairing]

structure Wifi where
  enabled : Bool
  ssid : Chars
  connected : Bool
  ip : Chars
  error : Chars

def wifiFields (w : Wifi) : List StructField :=
  [boolField 1 "enabled" w.enabled, stringField 2 "ssid" w.ssid,
    boolField 3 "connected" w.connected, stringField 4 "ip" w.ip, stringField 5 "error" w.error]

structure SysDyn where
  uptimeS : Fin (2 ^ 53)
  heapFree : UInt32
  heapMin : UInt32
  ledcFix : UInt32
  loopMaxUs : UInt32
  gaps : input.GapStats
  apSta : UInt32
  staRssi : Int32

def sysDynFields (s : SysDyn) : List StructField :=
  [⟨1, "uptime_s", .singular, .int64 s.uptimeS⟩, uintField 2 "heap_free" s.heapFree,
    uintField 3 "heap_min" s.heapMin, uintField 4 "ledc_fix" s.ledcFix,
    uintField 5 "loop_max_us" s.loopMaxUs, uintField 7 "pad_gap_max_ms" s.gaps.max1sMs,
    uintField 8 "pad_gap_le15" (s.gaps.hist 0), uintField 9 "pad_gap_le30" (s.gaps.hist 1),
    uintField 10 "pad_gap_le60" (s.gaps.hist 2), uintField 11 "pad_gap_le120" (s.gaps.hist 3),
    uintField 12 "pad_gap_le250" (s.gaps.hist 4), uintField 13 "pad_gap_over" (s.gaps.hist 5),
    uintField 14 "ap_sta" s.apSta, ⟨15, "sta_rssi", .singular, .sint32 s.staRssi⟩]

structure Ip6 where
  addr : Chars
  type : Chars

def ip6Fields (e : Ip6) : List StructField :=
  [stringField 1 "addr" e.addr, stringField 2 "type" e.type]

structure SysInfo where
  fwVer : Chars
  fwProj : Chars
  fwDate : Chars
  idf : Chars
  chip : Chars
  cores : Int32
  rev : Int32
  flashMb : UInt32
  uptimeS : Fin (2 ^ 53)
  heapFree : UInt32
  heapMin : UInt32
  reset : Chars
  macAp : Chars
  macSta : Chars
  apSsid : Chars
  ipAp : Chars
  staEn : Bool
  staSsid : Chars
  staConn : Bool
  ipSta : Chars
  ip6Ap : List Ip6
  ip6Sta : List Ip6
  mdns : Chars

/-- The members in front of the two lists of addresses; `mdns` comes behind them. -/
def sysInfoFields (s : SysInfo) : List StructField :=
  [stringField 1 "fw_ver" s.fwVer, stringField 2 "fw_proj" s.fwProj,
    stringField 3 "fw_date" s.fwDate, stringField 4 "idf" s.idf, stringField 5 "chip" s.chip,
    intField 6 "cores" s.cores, intField 7 "rev" s.rev, uintField 8 "flash_mb" s.flashMb,
    ⟨9, "uptime_s", .singular, .int64 s.uptimeS⟩, uintField 10 "heap_free" s.heapFree,
    uintField 11 "heap_min" s.heapMin, stringField 12 "reset" s.reset,
    stringField 13 "mac_ap" s.macAp, stringField 14 "mac_sta" s.macSta,
    stringField 15 "ap_ssid" s.apSsid, stringField 16 "ip_ap" s.ipAp,
    boolField 17 "sta_en" s.staEn, stringField 18 "sta_ssid" s.staSsid,
    boolField 19 "sta_conn" s.staConn, stringField 20 "ip_sta" s.ipSta]

/-- The text of a literal. -/
def chars (s : String) : Chars :=
  if h : (cBytes s).length < 2 ^ 24 then ⟨cBytes s, h⟩ else ⟨[], by decide⟩

/-- The three members of a oneof, with consecutive numbers. -/
def oneofFields (unspecified : Int → Int) (first : Nat) (bname iname fname : String) :
    OneofValue → List StructField
  | .unset =>
    [⟨UInt32.ofNat first, bname, .oneof false, .bool false⟩,
      ⟨UInt32.ofNat (first + 1), iname, .oneof false, .int32 0⟩,
      ⟨UInt32.ofNat (first + 2), fname, .oneof false, .float 0⟩]
  | .bval b =>
    [⟨UInt32.ofNat first, bname, .oneof true, .bool b⟩,
      ⟨UInt32.ofNat (first + 1), iname, .oneof false, .int32 0⟩,
      ⟨UInt32.ofNat (first + 2), fname, .oneof false, .float 0⟩]
  | .ival i =>
    [⟨UInt32.ofNat first, bname, .oneof false, .bool false⟩,
      ⟨UInt32.ofNat (first + 1), iname, .oneof true, .int32 (Int32.ofInt (storedInt unspecified i))⟩,
      ⟨UInt32.ofNat (first + 2), fname, .oneof false, .float 0⟩]
  | .fval f =>
    [⟨UInt32.ofNat first, bname, .oneof false, .bool false⟩,
      ⟨UInt32.ofNat (first + 1), iname, .oneof false, .int32 0⟩,
      ⟨UInt32.ofNat (first + 2), fname, .oneof true, .float f.toBits⟩]

def pairFields (unspecified : Int → Int) (pv : ParamVal) : List StructField :=
  stringField 1 "name" (chars pv.name) :: oneofFields unspecified 2 "bval" "ival" "fval" pv.value

def metaFields (unspecified : Int → Int) (m : ParamMeta) : List StructField :=
  [stringField 1 "name" (chars m.name), stringField 2 "desc" (chars m.desc),
    stringField 3 "cat" (chars m.cat), stringField 4 "help" (chars m.help)] ++
    (oneofFields unspecified 8 "bval" "ival" "fval" m.value ++
      (oneofFields unspecified 11 "bmin" "imin" "fmin" m.minv ++
        (oneofFields unspecified 14 "bmax" "imax" "fmax" m.maxv ++
          oneofFields unspecified 17 "bdef" "idef" "fdef" m.defv)))

/-- A record as `encEvlog` fills it. -/
def recFields (r : evlog.Rec) : List StructField :=
  [uintField 1 "t_ms" r.tMs, uintField 2 "boot" (r.head &&& 0xFFFF),
    uintField 3 "code" (r.head >>> 16 &&& 0xFF), uintField 4 "data" r.data]

def histFields (accel pwml pwmr loop : Chars) : List StructField :=
  [uintField 1 "dt_fast" 5, ⟨4, "accel", .singular, .bytes accel⟩,
    ⟨5, "pwml", .singular, .bytes pwml⟩, ⟨6, "pwmr", .singular, .bytes pwmr⟩,
    ⟨11, "loop", .singular, .bytes loop⟩]

/-! ### The replies -/

def buildStatusPb (s : KartStatus Float32) (padBatt : Int32) (ageUs : Int) : Option (List UInt8) :=
  encodeMsg 1 (encodeStruct (statusFields s padBatt ageUs)) ()

def buildPadPb (p : Pad) : Option (List UInt8) := encodeMsg 5 (encodeStruct (padFields p)) ()

def buildWifiPb (w : Wifi) : Option (List UInt8) := encodeMsg 6 (encodeStruct (wifiFields w)) ()

def buildSysDynPb (s : SysDyn) : Option (List UInt8) :=
  encodeMsg 8 (encodeStruct (sysDynFields s)) ()

/-- `encIp6`, of the field with this number. -/
def encIp6 {σ : Type} (number : UInt32) (addresses : List Ip6) : Encoder σ :=
  all (addresses.map fun e =>
    andThen (encodeTag number.toNat 2) (submessage (encodeStruct (ip6Fields e))))

def buildSysInfoPb (s : SysInfo) : Option (List UInt8) :=
  encodeMsg 7 (andThen (encodeStruct (sysInfoFields s)) (andThen (encIp6 21 s.ip6Ap)
    (andThen (encIp6 22 s.ip6Sta) (encodeStruct [stringField 23 "mdns" s.mdns])))) ()

/-- What the firmware can reply, by the member of `body`.  The log has the records of its
window. -/
inductive Msg where
  | status (s : KartStatus Float32) (padBatt : Int32) (ageUs : Int)
  | config (c : KartConfig Float32)
  | vals (c : KartConfig Float32)
  | hist (accel pwml pwmr loop : Chars)
  | pad (p : Pad)
  | wifi (w : Wifi)
  | sysinfo (s : SysInfo)
  | sysdyn (s : SysDyn)
  | ok
  | evlog (recs : { l : List evlog.Rec // l.length ≤ EVLOG_REPLY_MAX }) (total pending : UInt32)

namespace Msg

variable (unspecified : Int → Int)

/-- The bytes, unless they do not fit. -/
def encode : Msg → Option (List UInt8)
  | status s padBatt ageUs => buildStatusPb s padBatt ageUs
  | config c => buildConfigPb unspecified PARAMS (cfgGet c)
  | vals c => buildValsPb unspecified c
  | hist accel pwml pwmr loop => encodeHist accel.val pwml.val pwmr.val loop.val
  | pad p => buildPadPb p
  | wifi w => buildWifiPb w
  | sysinfo s => buildSysInfoPb s
  | sysdyn s => buildSysDynPb s
  | ok => encodeMsg 9 nothing ()
  | evlog recs total pending => some (evlogBytes recs total pending)

/-- What the page is meant to see. -/
def seen : Msg → String × Js
  | status s padBatt ageUs => ("status", shown (statusFields s padBatt ageUs))
  | config c =>
    ("config", .obj [("params",
      .arr (PARAMS.map fun p => shown (metaFields unspecified (p.meta (cfgGet c p)))))])
  | vals c =>
    ("vals", .obj [("params", .arr ((encParamVals c).map fun pv =>
      shown (pairFields unspecified pv)))])
  | hist accel pwml pwmr loop => ("hist", shown (histFields accel pwml pwmr loop))
  | pad p => ("pad", shown (padFields p))
  | wifi w => ("wifi", shown (wifiFields w))
  | sysinfo s =>
    ("sysinfo", .obj ((sysInfoFields s).filterMap StructField.shown ++
      [("ip6_ap", .arr (s.ip6Ap.map fun e => shown (ip6Fields e))),
        ("ip6_sta", .arr (s.ip6Sta.map fun e => shown (ip6Fields e))),
        ("mdns", .text (Utf8.read s.mdns.val))]))
  | sysdyn s => ("sysdyn", shown (sysDynFields s))
  | ok => ("ok", .obj [])
  | evlog recs total pending =>
    ("evlog", .obj [("ev", .arr (recs.val.map fun r => shown (recFields r))),
      ("total", .int total.toNat), ("pending", .int pending.toNat)])

end Msg

/-! ### Structs of the replies -/

section Declares

theorem declares_status (s : KartStatus Float32) (padBatt : Int32) (ageUs : Int) :
    Declares page.Status (statusFields s padBatt ageUs) :=
  ⟨rfl, by constructor <;> decide, by decide⟩

theorem declares_pad (p : Pad) : Declares page.Pad (padFields p) :=
  ⟨rfl, by constructor <;> decide, by decide⟩

theorem declares_wifi (w : Wifi) : Declares page.Wifi (wifiFields w) :=
  ⟨rfl, by constructor <;> decide, by decide⟩

theorem declares_sysDyn (s : SysDyn) : Declares page.SysDyn (sysDynFields s) :=
  ⟨rfl, by constructor <;> decide, by decide⟩

theorem declares_ip6 (e : Ip6) : Declares page.Ip6 (ip6Fields e) :=
  ⟨rfl, by constructor <;> decide, by decide⟩

theorem declares_rec (r : evlog.Rec) : Declares page.EvlogEntry (recFields r) :=
  ⟨rfl, by constructor <;> decide, by decide⟩

theorem declares_hist (accel pwml pwmr loop : Chars) :
    Declares page.Hist (histFields accel pwml pwmr loop) :=
  ⟨rfl, by constructor <;> decide, by decide⟩

/-- The members are declared, whichever of them is set. -/
theorem descriptor_oneof (unspecified : Int → Int) (first : Nat) (bname iname fname : String)
    (v : OneofValue) :
    descriptor ((oneofFields unspecified first bname iname fname v).map StructField.part) =
      [(UInt32.ofNat first, (Field.ofBool bname).inOneof),
        (UInt32.ofNat (first + 1), (Field.ofInt iname int32).inOneof),
        (UInt32.ofNat (first + 2), (Field.ofFloat fname).inOneof)] := by
  cases v <;> rfl

theorem declares_pair (unspecified : Int → Int) (pv : ParamVal) :
    Declares page.ParamVal (pairFields unspecified pv) where
  members := by
    rw [pairFields, List.map_cons, descriptor, List.map_cons, ← descriptor, descriptor_oneof]
    rfl
  valid := by constructor <;> decide
  short := by decide

theorem declares_meta (unspecified : Int → Int) (m : ParamMeta) :
    Declares page.ParamMeta (metaFields unspecified m) where
  members := by
    simp only [metaFields, List.map_append, descriptor_append, descriptor_oneof]
    rfl
  valid := by constructor <;> decide
  short := by decide

end Declares

/-! ### One reply -/

theorem Msg_valid : page.Msg.Valid where
  small := by decide
  numbers := by decide
  names := by decide

/-- The page reads the body of an envelope. -/
theorem pbDecode_body {number : UInt32} {name : String} {d : Descriptor}
    (hentry : (number, Field.ofMessage name d) ∈ page.Msg) {parts : List Part}
    (hd : descriptor parts = d) (hvalid : d.Valid) (hlen : (body parts).length < 2 ^ 32) :
    page.pbDecode (⟨number, .bytes (body parts)⟩ : WireField).encode =
      .ok (some (name, object parts)) := by
  subst hd
  have hread := reads_message hvalid hlen
  rw [page.pbDecode, decode_one Msg_valid hentry hread]
  rfl

/-- A reply in a buffer of this size. -/
def envelope (cap : Nat) (number : UInt32) (e : Encoder Unit) : Option (List UInt8) :=
  (andThen (encodeTag number.toNat 2) (submessage e) (.buffer cap) ()).map fun r => r.1.written

/-- What is in the buffer, if the body fits it. -/
theorem envelope_some {cap : Nat} (hcap : cap < 2 ^ 32) {number : UInt32}
    (hnumber : number.toNat < 2 ^ 29) {e : Encoder Unit} {content : List UInt8}
    (he : Writes (fun _ => True) e content) {bytes : List UInt8}
    (h : envelope cap number e = some bytes) :
    bytes = (⟨number, .bytes content⟩ : WireField).encode ∧ content.length < 2 ^ 32 := by
  have hmsg := writes_andThen (writes_varint (fun _ : Unit => True) (8 * number.toNat + 2))
    (writes_submessage he)
  have hbuffer := hmsg.buffer cap (x := ()) trivial
  unfold envelope encodeTag at h
  rw [h] at hbuffer
  split_ifs at hbuffer with hfits
  rw [List.length_append, List.length_append] at hfits
  rw [Varint.encode_eq (by omega), Varint.encode_eq (by omega)] at hbuffer
  exact ⟨Option.some.inj hbuffer, by omega⟩

section Reply

variable {cap : Nat} (hcap : cap < 2 ^ 32) {number : UInt32} {name : String} {d : Descriptor}
  (hentry : (number, Field.ofMessage name d) ∈ page.Msg) {bytes : List UInt8}

include hcap hentry

/-- A reply with these parts is read as their object. -/
theorem pbDecode_reply {parts : List Part} (hd : descriptor parts = d) (hvalid : d.Valid)
    {e : Encoder Unit} (he : Writes (fun _ => True) e (body parts))
    (h : envelope cap number e = some bytes) :
    page.pbDecode bytes = .ok (some (name, object parts)) := by
  obtain ⟨rfl, hlen⟩ := envelope_some hcap (Msg_valid.small _ hentry) he h
  exact pbDecode_body hentry hd hvalid hlen

/-- A reply that is a struct is read as the object with its values. -/
theorem pbDecode_struct {fields : List StructField} (hd : Declares d fields)
    (h : envelope cap number (encodeStruct fields) = some bytes) :
    page.pbDecode bytes = .ok (some (name, shown fields)) := by
  rw [← object_struct]
  exact pbDecode_reply hcap hentry hd.members hd.valid (hd.writes _) h

/-- A reply with a list of structs. -/
theorem pbDecode_list {structs : List (List StructField)} {d' : Descriptor} {member : String}
    (hd : d = [(1, .ofMessages member d')]) (hstructs : ∀ fields ∈ structs, Declares d' fields)
    {e : Encoder Unit}
    (he : Writes (fun _ => True) e (body [manyStructs 1 member d' structs hstructs]))
    (h : envelope cap number e = some bytes) :
    page.pbDecode bytes = .ok (some (name, .obj [(member, .arr (structs.map shown))])) := by
  have hvalid : d.Valid := by
    subst hd
    constructor <;> simp
  have hparts : descriptor [manyStructs 1 member d' structs hstructs] = d := hd.symm
  have hread := pbDecode_reply hcap hentry hparts hvalid he h
  rwa [object, List.filterMap_cons, member_manyStructs] at hread

end Reply

theorem arena_lt : hw.PB_REPLY_CAP < 2 ^ 32 := by decide

/-! ### Members of a oneof -/

section Oneof

variable {σ : Type} (I : σ → Prop) (unspecified : Int → Int)

theorem storedInt_ofInt (i : Int) :
    (Int32.ofInt (storedInt unspecified i)).toInt = storedInt unspecified i := by
  obtain ⟨hlow, hhigh⟩ := storedInt_range unspecified i
  exact Int32.toInt_ofInt_of_le hlow hhigh

/-- Only the member that is set is sent. -/
theorem encodeStruct_oneof (first : Nat) (hfirst : first < 100) (bname iname fname : String)
    (v : OneofValue) :
    encodeStruct (oneofFields unspecified first bname iname fname v) =
      (encOneof unspecified first v : Encoder σ) := by
  have hnumber : ∀ n < 102, (UInt32.ofNat n).toNat = n := by
    intro n hn
    rw [UInt32.toNat_ofNat']
    omega
  cases v with
  | unset => rfl
  | bval b =>
    change andThen (andThen (encodeTag (UInt32.ofNat first).toNat 0) _) nothing = _
    rw [andThen_nothing, hnumber first (by omega)]
    rfl
  | ival i =>
    change andThen (andThen (encodeTag (UInt32.ofNat (first + 1)).toNat 0)
      (encodeVarint ((Int32.ofInt (storedInt unspecified i)).toInt %
        18446744073709551616).toNat)) nothing = _
    rw [andThen_nothing, hnumber (first + 1) (by omega), storedInt_ofInt]
    rfl
  | fval f =>
    change andThen (andThen (encodeTag (UInt32.ofNat (first + 2)).toNat 5) _) nothing = _
    rw [andThen_nothing, hnumber (first + 2) (by omega)]
    rfl

theorem writes_oneof (first : Nat) (hfirst : first < 100) (bname iname fname : String)
    (v : OneofValue) :
    Writes I (encOneof unspecified first v)
      (body ((oneofFields unspecified first bname iname fname v).map StructField.part)) := by
  rw [← encodeStruct_oneof unspecified first hfirst bname iname fname v]
  refine writes_struct I fun f hf => ?_
  have hnumber : ∀ n < 102, (UInt32.ofNat n).toNat < 2 ^ 29 := by
    intro n hn
    rw [UInt32.toNat_ofNat']
    omega
  cases v <;> simp only [oneofFields, List.mem_cons, List.not_mem_nil, or_false] at hf <;>
    rcases hf with rfl | rfl | rfl <;> exact hnumber _ (by omega)

end Oneof

/-! ### The parameters -/

section Params

variable {σ : Type} (I : σ → Prop) (unspecified : Int → Int)

theorem chars_val {s : String} (h : (cBytes s).length < 2 ^ 24) : (chars s).val = cBytes s := by
  rw [chars, dif_pos h]

theorem writes_text (number : UInt32) (hnumber : number.toNat < 2 ^ 29) (name : String)
    {s : String} (h : (cBytes s).length < 2 ^ 24) :
    Writes I (encStr number.toNat s) (body [(stringField number name (chars s)).part]) := by
  have hwrites := StructField.writes_encode I (f := stringField number name (chars s)) hnumber
  have hencode : (stringField number name (chars s)).encode = (encStr number.toNat s : Encoder σ) := by
    change andThen (encodeTag number.toNat 2) (encodeString (chars s).val) = _
    rw [chars_val h]
    rfl
  rw [hencode] at hwrites
  rwa [body, wire, List.flatMap_singleton]

theorem body_cons (p : Part) (parts : List Part) : body (p :: parts) = body [p] ++ body parts :=
  body_append [p] parts

theorem writes_pair {pv : ParamVal} (h : (cBytes pv.name).length < 2 ^ 24) :
    Writes I (encParamVal unspecified pv)
      (body ((pairFields unspecified pv).map StructField.part)) := by
  have hvalue := writes_oneof I unspecified 2 (by omega) "bval" "ival" "fval" pv.value
  have hname := writes_text I 1 (by decide) "name" h
  rw [pairFields, List.map_cons, body_cons]
  refine writes_andThen hname ?_
  change Writes I (andThen _ nothing) _
  rw [andThen_nothing]
  exact hvalue

/-- The texts of a parameter are not longer than memory. -/
structure MetaFits (m : ParamMeta) : Prop where
  name : (cBytes m.name).length < 2 ^ 24
  desc : (cBytes m.desc).length < 2 ^ 24
  cat : (cBytes m.cat).length < 2 ^ 24
  help : (cBytes m.help).length < 2 ^ 24

theorem writes_meta {m : ParamMeta} (h : MetaFits m) :
    Writes I (encParamMeta unspecified m)
      (body ((metaFields unspecified m).map StructField.part)) := by
  have hname := writes_text I 1 (by decide) "name" h.name
  have hdesc := writes_text I 2 (by decide) "desc" h.desc
  have hcat := writes_text I 3 (by decide) "cat" h.cat
  have hhelp := writes_text I 4 (by decide) "help" h.help
  have hvalue := writes_oneof I unspecified 8 (by omega) "bval" "ival" "fval" m.value
  have hminv := writes_oneof I unspecified 11 (by omega) "bmin" "imin" "fmin" m.minv
  have hmaxv := writes_oneof I unspecified 14 (by omega) "bmax" "imax" "fmax" m.maxv
  have hdefv := writes_oneof I unspecified 17 (by omega) "bdef" "idef" "fdef" m.defv
  rw [metaFields, List.map_append, List.map_append, List.map_append, List.map_append,
    body_append, body_append, body_append, body_append]
  have htexts : ∀ p q r s : Part, body [p, q, r, s] = body [p] ++ (body [q] ++ (body [r] ++ body [s])) := by
    intro p q r s
    rw [body_cons, body_cons q, body_cons r]
  rw [List.map_cons, List.map_cons, List.map_cons, List.map_cons, List.map_nil, htexts,
    List.append_assoc, List.append_assoc, List.append_assoc]
  refine writes_andThen hname (writes_andThen hdesc (writes_andThen hcat (writes_andThen hhelp ?_)))
  refine writes_andThen hvalue (writes_andThen hminv (writes_andThen hmaxv ?_))
  change Writes I (andThen _ nothing) _
  rw [andThen_nothing]
  exact hdefv

end Params

/-! ### The lists -/

theorem params_guard : configPbBytes PARAMS ≤ hw.PB_REPLY_CAP := by decide +kernel

/-- The texts of the table are short. -/
theorem metaFits_params {p : ParamDesc Float32} (hp : p ∈ PARAMS) (value : Float32) :
    MetaFits (p.meta value) := by
  have htexts := texts_le hp params_guard
  simp only [cstrLen] at htexts
  constructor
  · change (cBytes p.name).length < 2 ^ 24
    omega
  · change (cBytes p.desc).length < 2 ^ 24
    omega
  · change (cBytes p.cat).length < 2 ^ 24
    omega
  · change (cBytes p.help).length < 2 ^ 24
    omega

section Lists

variable (unspecified : Int → Int) (c : KartConfig Float32)

theorem declares_metas :
    ∀ fields ∈ PARAMS.map fun p => metaFields unspecified (p.meta (cfgGet c p)),
      Declares page.ParamMeta fields :=
  Declares.map (fun _ => declares_meta unspecified _) PARAMS

theorem declares_pairs :
    ∀ fields ∈ (encParamVals c).map (pairFields unspecified), Declares page.ParamVal fields :=
  Declares.map (declares_pair unspecified) _

theorem declares_ip6s (addresses : List Ip6) :
    ∀ fields ∈ addresses.map ip6Fields, Declares page.Ip6 fields :=
  Declares.map declares_ip6 addresses

theorem declares_recs (recs : List evlog.Rec) :
    ∀ fields ∈ recs.map recFields, Declares page.EvlogEntry fields :=
  Declares.map declares_rec recs

variable {σ : Type} (I : σ → Prop)

theorem writes_encParamMetas :
    Writes I (encParamMetas unspecified PARAMS (cfgGet c))
      (body [manyStructs 1 "params" page.ParamMeta _ (declares_metas unspecified c)]) := by
  refine writes_manyStructs 1 (by decide) "params" (fun p hp => ?_) (declares_metas unspecified c)
  exact writes_meta I unspecified (metaFits_params hp _)

theorem writes_encParamVals :
    Writes I (all ((encParamVals c).map fun pv =>
        andThen (encodeTag 1 2) (submessage (encParamVal unspecified pv))))
      (body [manyStructs 1 "params" page.ParamVal _ (declares_pairs unspecified c)]) := by
  refine writes_manyStructs 1 (by decide) "params" (fun pv hpv => ?_) (declares_pairs unspecified c)
  obtain ⟨p, hp, rfl⟩ := List.mem_map.mp hpv
  refine writes_pair I unspecified ?_
  rw [names_fit p hp]
  exact (metaFits_params hp 0).name

theorem writes_encIp6 (number : UInt32) (hnumber : number.toNat < 2 ^ 29) (name : String)
    (addresses : List Ip6) :
    Writes I (encIp6 number addresses)
      (body [manyStructs number name page.Ip6 _ (declares_ip6s addresses)]) :=
  writes_manyStructs number hnumber name (fun e _ => (declares_ip6 e).writes I) (declares_ip6s addresses)

/-- A member that is left out when it is zero. -/
theorem encUint_eq (number : UInt32) (name : String) (v : UInt32) :
    (encUint number.toNat v : Encoder σ) = (uintField number name v).encode := by
  have hsent : (uintField number name v).isSent = !decide (v = 0) := rfl
  rw [encUint, StructField.encode, hsent]
  by_cases hv : v = 0
  · rw [if_pos hv, decide_eq_true hv]
    rfl
  · rw [if_neg hv, decide_eq_false hv]
    rfl

theorem writes_rec (r : evlog.Rec) :
    Writes I (encEvlogEntry r) (body ((recFields r).map StructField.part)) := by
  have htMs : (encUint 1 r.tMs : Encoder σ) = (uintField 1 "t_ms" r.tMs).encode :=
    encUint_eq 1 "t_ms" r.tMs
  have hboot : (encUint 2 (r.head &&& 0xFFFF) : Encoder σ) =
      (uintField 2 "boot" (r.head &&& 0xFFFF)).encode := encUint_eq 2 "boot" _
  have hcode : (encUint 3 (r.head >>> 16 &&& 0xFF) : Encoder σ) =
      (uintField 3 "code" (r.head >>> 16 &&& 0xFF)).encode := encUint_eq 3 "code" _
  have hdata : (encUint 4 r.data : Encoder σ) = (uintField 4 "data" r.data).encode :=
    encUint_eq 4 "data" r.data
  rw [encEvlogEntry, htMs, hboot, hcode, hdata]
  exact (declares_rec r).writes I

/-- The members of the reply of the log, on both sides. -/
def evlogParts (recs : List evlog.Rec) (total pending : UInt32) : List Part :=
  manyStructs 1 "ev" page.EvlogEntry _ (declares_recs recs) ::
    [uintField 2 "total" total, uintField 3 "pending" pending].map StructField.part

theorem evlogBytes_eq {recs : List evlog.Rec} (h : recs.length ≤ EVLOG_REPLY_MAX)
    (total pending : UInt32) :
    evlogBytes recs total pending =
        (⟨10, .bytes (body (evlogParts recs total pending))⟩ : WireField).encode ∧
      (body (evlogParts recs total pending)).length < 2 ^ 32 := by
  let I : Unit → Prop := fun _ => True
  have htotal : (encUint 2 total : Encoder Unit) = (uintField 2 "total" total).encode :=
    encUint_eq 2 "total" total
  have hpending : (encUint 3 pending : Encoder Unit) = (uintField 3 "pending" pending).encode :=
    encUint_eq 3 "pending" pending
  have hlist := writes_all (fun r (_ : r ∈ recs) => writes_message (writes_entry I r) 1)
  have hown := writes_andThen hlist (writes_andThen (writes_uint I 2 total) (writes_uint I 3 pending))
  have hrecs := writes_manyStructs (I := I) 1 (by decide) "ev"
    (fun r _ => writes_rec I r) (declares_recs recs)
  have hnumbers : Writes I (andThen (encUint 2 total) (encUint 3 pending))
      (body ([uintField 2 "total" total, uintField 3 "pending" pending].map StructField.part)) := by
    have hall : Writes I (encodeStruct [uintField 2 "total" total, uintField 3 "pending" pending])
        _ := writes_struct I (by simp [uintField])
    rw [htotal, hpending]
    change Writes I (andThen _ (andThen _ nothing)) _ at hall
    rwa [andThen_nothing] at hall
  have hparts := writes_andThen hrecs hnumbers
  have hsame : listBytes recs ++ (uintBytes 2 total ++ uintBytes 3 pending) =
      body (evlogParts recs total pending) := by
    rw [evlogParts, body_cons]
    exact hown.unique hparts (x := ()) trivial
  have hlen : (body (evlogParts recs total pending)).length < 2 ^ 32 := by
    have hall := length_evlogBytes_le h total pending
    rw [evlogBytes, messageBytes, hsame, List.length_append, List.length_append,
      hw.PB_REPLY_CAP] at hall
    omega
  refine ⟨?_, hlen⟩
  rw [evlogBytes, messageBytes, hsame, Varint.encode_eq (by omega), Varint.encode_eq (by omega)]
  rfl

end Lists

/-! ### The page sees what the firmware says -/

theorem declares_sysInfo (s : SysInfo) : Declares (page.SysInfo.take 20) (sysInfoFields s) :=
  ⟨rfl, by constructor <;> decide, by decide⟩

/-- The members of `SysInfo` on both sides. -/
def sysInfoParts (s : SysInfo) : List Part :=
  (sysInfoFields s).map StructField.part ++
    ([manyStructs 21 "ip6_ap" page.Ip6 _ (declares_ip6s s.ip6Ap)] ++
      ([manyStructs 22 "ip6_sta" page.Ip6 _ (declares_ip6s s.ip6Sta)] ++
        [stringField 23 "mdns" s.mdns].map StructField.part))

theorem object_sysInfo (s : SysInfo) :
    object (sysInfoParts s) =
      .obj ((sysInfoFields s).filterMap StructField.shown ++
        [("ip6_ap", .arr (s.ip6Ap.map fun e => shown (ip6Fields e))),
          ("ip6_sta", .arr (s.ip6Sta.map fun e => shown (ip6Fields e))),
          ("mdns", .text (Utf8.read s.mdns.val))]) := by
  have hfields : ((sysInfoFields s).map StructField.part).filterMap Part.member =
      (sysInfoFields s).filterMap StructField.shown := by
    rw [List.filterMap_map]
    exact List.filterMap_congr fun f _ => f.member_part
  have hmdns : (stringField 23 "mdns" s.mdns).part.member = some ("mdns", .text (Utf8.read s.mdns.val)) :=
    (stringField 23 "mdns" s.mdns).member_part
  have hlist : ∀ (number : UInt32) (name : String) (addresses : List Ip6),
      (manyStructs number name page.Ip6 _ (declares_ip6s addresses)).member =
        some (name, .arr (addresses.map fun e => shown (ip6Fields e))) := by
    intro number name addresses
    rw [member_manyStructs, List.map_map]
    rfl
  rw [object, sysInfoParts, List.filterMap_append, List.filterMap_append, List.filterMap_append,
    hfields]
  simp only [List.map_cons, List.map_nil, List.filterMap_cons, List.filterMap_nil, hlist, hmdns]
  rfl

theorem sysInfo_reply (s : SysInfo) {bytes : List UInt8} (h : buildSysInfoPb s = some bytes) :
    page.pbDecode bytes = .ok (some ("sysinfo", object (sysInfoParts s))) := by
  let I : Unit → Prop := fun _ => True
  have hmdns : Writes I (encodeStruct [stringField 23 "mdns" s.mdns])
      (body ([stringField 23 "mdns" s.mdns].map StructField.part)) := by
    refine writes_struct I fun f hf => ?_
    obtain rfl := List.mem_singleton.mp hf
    exact show (23 : UInt32).toNat < 2 ^ 29 by decide
  have hall := writes_andThen ((declares_sysInfo s).writes I)
    (writes_andThen (writes_encIp6 I 21 (by decide) "ip6_ap" s.ip6Ap)
      (writes_andThen (writes_encIp6 I 22 (by decide) "ip6_sta" s.ip6Sta) hmdns))
  rw [← body_append, ← body_append, ← body_append] at hall
  have hentry : (7, Field.ofMessage "sysinfo" page.SysInfo) ∈ page.Msg := by simp [page.Msg]
  exact pbDecode_reply arena_lt hentry rfl (by constructor <;> decide) hall h

theorem evlog_reply_read {recs : List evlog.Rec} (h : recs.length ≤ EVLOG_REPLY_MAX)
    (total pending : UInt32) :
    page.pbDecode (evlogBytes recs total pending) =
      .ok (some ("evlog", .obj [("ev", .arr (recs.map fun r => shown (recFields r))),
        ("total", .int total.toNat), ("pending", .int pending.toNat)])) := by
  obtain ⟨hbytes, hlen⟩ := evlogBytes_eq h total pending
  have hentry : (10, Field.ofMessage "evlog" page.Evlog) ∈ page.Msg := by simp [page.Msg]
  have hnumber : ∀ (number : UInt32) (name : String) (v : UInt32),
      (uintField number name v).part.member = some (name, .int v.toNat) :=
    fun number name v => (uintField number name v).member_part
  rw [hbytes, pbDecode_body hentry rfl (by constructor <;> decide) hlen, object, evlogParts]
  simp only [List.map_cons, List.map_nil, List.filterMap_cons, List.filterMap_nil,
    member_manyStructs, hnumber, List.map_map]
  rfl

/-- **Whatever the firmware replies, the page sees it.**  It decodes the frame to the member of
`body` with exactly the values that went into it; a text is shown as `Utf8.read` takes its bytes,
which is the text itself where they are UTF-8. -/
theorem page_reads_reply (unspecified : Int → Int) (m : Msg) {bytes : List UInt8}
    (h : m.encode unspecified = some bytes) :
    page.pbDecode bytes = .ok (some (m.seen unspecified)) ∧
      ∀ text : String, text.toUTF8.size ≤ hw.PB_REPLY_CAP →
        Utf8.read text.toUTF8.data.toList = text.toList.flatMap Utf8.utf16 := by
  refine ⟨?_, fun text hsize => Utf8.read_toUTF8 (Nat.lt_of_le_of_lt hsize (by decide))⟩
  cases m with
  | status s padBatt ageUs =>
    have hentry : (1, Field.ofMessage "status" page.Status) ∈ page.Msg := by simp [page.Msg]
    exact pbDecode_struct arena_lt hentry (declares_status s padBatt ageUs) h
  | config c =>
    have hentry : (2, Field.ofMessage "config" page.Config) ∈ page.Msg := by simp [page.Msg]
    have hread := pbDecode_list arena_lt hentry rfl (declares_metas unspecified c)
      (writes_encParamMetas unspecified c _) h
    rwa [List.map_map] at hread
  | vals c =>
    have hentry : (3, Field.ofMessage "vals" page.Vals) ∈ page.Msg := by simp [page.Msg]
    have hread := pbDecode_list arena_lt hentry rfl (declares_pairs unspecified c)
      (writes_encParamVals unspecified c _) h
    rwa [List.map_map] at hread
  | hist accel pwml pwmr loop =>
    have hentry : (4, Field.ofMessage "hist" page.Hist) ∈ page.Msg := by simp [page.Msg]
    have hcap : HIST_BIN_CAP < 2 ^ 32 := by decide
    exact pbDecode_struct hcap hentry (declares_hist accel pwml pwmr loop) h
  | pad p =>
    have hentry : (5, Field.ofMessage "pad" page.Pad) ∈ page.Msg := by simp [page.Msg]
    exact pbDecode_struct arena_lt hentry (declares_pad p) h
  | wifi w =>
    have hentry : (6, Field.ofMessage "wifi" page.Wifi) ∈ page.Msg := by simp [page.Msg]
    exact pbDecode_struct arena_lt hentry (declares_wifi w) h
  | sysinfo s =>
    rw [sysInfo_reply s h, object_sysInfo]
    rfl
  | sysdyn s =>
    have hentry : (8, Field.ofMessage "sysdyn" page.SysDyn) ∈ page.Msg := by simp [page.Msg]
    exact pbDecode_struct arena_lt hentry (declares_sysDyn s) h
  | ok =>
    have hentry : (9, Field.ofMessage "ok" page.Ok) ∈ page.Msg := by simp [page.Msg]
    have hok : Declares page.Ok [] := ⟨rfl, by constructor <;> decide, by decide⟩
    exact pbDecode_struct arena_lt hentry hok h
  | evlog recs total pending =>
    obtain rfl : evlogBytes recs total pending = bytes := Option.some.inj h
    exact evlog_reply_read recs.property total pending

/-- A network that is enabled but not joined, with the reason of a refusal.  Its name is not
UTF-8. -/
def unjoined : Wifi where
  enabled := true
  ssid := ⟨[0xC3, 0x28], by decide⟩
  connected := false
  ip := ⟨[], by decide⟩
  error := ⟨[98, 117, 115, 121], by decide⟩

/-- The second byte of the name is taken for the rest of a character. -/
theorem page_reads_reply_unjoined :
    page.pbDecode [50, 14, 8, 1, 18, 2, 0xC3, 0x28, 34, 0, 42, 4, 98, 117, 115, 121] =
      .ok (some ("wifi", .obj [("enabled", .bool true), ("ssid", .text [232]),
        ("connected", .bool false), ("ip", .text []), ("error", .text [98, 117, 115, 121])])) := by
  have hencode : (Msg.wifi unjoined).encode (fun i => i) =
      some [50, 14, 8, 1, 18, 2, 0xC3, 0x28, 34, 0, 42, 4, 98, 117, 115, 121] := by decide +kernel
  have hname : Utf8.read unjoined.ssid.val = [232] := by decide +kernel
  have hip : Utf8.read unjoined.ip.val = [] := by decide +kernel
  have herror : Utf8.read unjoined.error.val = [98, 117, 115, 121] := by decide +kernel
  rw [(page_reads_reply _ _ hencode).1, Msg.seen, shown]
  simp only [wifiFields, List.filterMap_cons, List.filterMap_nil, StructField.shown, boolField,
    stringField, FieldValue.js, hname, hip, herror]
  rfl

end web

end KartFirmware

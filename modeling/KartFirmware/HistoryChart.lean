import KartFirmware.CInt
import KartFirmware.HistoryRing
import KartFirmware.WebFrames

/-!
# The history chart

The charts of the web page: `histSample`, which a timer calls once a second, the peaks of
the control loop that it and the system tab read (`EspController::loopMaxUs`), and
`buildHistPb`, which sends the rings and keeps what it sent for a second.

A peak is a plain variable of two tasks: the end of `tickOnce` compares it and may store it,
a reader loads it and then stores 0.  Each of these is a step, and so is what a task does
under `m_hist_mtx` between two of them.

A `Chart` is what the page is meant to see: every fifth status, each with the ticks that
have landed on the peak since it was last reset.  The rings, the peak and the counter of the
firmware hold its end (`Refines`), and a reply is the chart as it was less than a second ago
(`hist_reply`).  A tick that lands between a reading and its reset is in no point.
-/

set_option linter.unusedSectionVars false

namespace KartFirmware

namespace Ring

variable {T : Type} {CAP : Capacity} {r : Ring T CAP} {vs : List T}

/-- What `copyTo` leaves in a buffer as large as the ring. -/
def linear (r : Ring T CAP) (zero : T) : Option (List T) := do
  let copied ← r.copyTo (fun _ => zero) CAP.val
  some ((List.range copied.1.toNat).map copied.2)

theorem Represents.linear (h : r.Represents vs) (hsmall : CAP.val ≤ 1073741824) (zero : T) :
    r.linear zero = some (vs.drop (vs.length - CAP.val)) := by
  have hslot : (vs.length - CAP.val) % CAP.val < CAP.val := Nat.mod_lt _ CAP.pos
  have hcopied : copied CAP vs CAP.val = min vs.length CAP.val := by
    rw [copied]
    omega
  have hcopy := h.copyTo (fun _ => zero) CAP.val
  rw [hcopied, if_pos (by omega)] at hcopy
  rw [Ring.linear, hcopy, Option.bind_eq_bind, Option.bind_some]
  refine congrArg some (List.ext_getElem? fun i => ?_)
  rcases Nat.lt_or_ge i (min vs.length CAP.val) with hlt | hge
  · rw [h.buf hlt, List.getElem?_map, Int.toNat_natCast, List.getElem?_range hlt,
      Option.map_some]
    exact congrArg some (if_pos hlt)
  · rw [List.getElem?_eq_none, List.getElem?_eq_none]
    · rw [List.length_drop]
      omega
    · simp only [List.length_map, List.length_range, Int.toNat_natCast]
      omega

end Ring

namespace web

open PbDecode ProtoEncode
open PbFields (writes_encodeString writes_field)

variable {F : Type} [CFloat F]

/-! ### The samples -/

def HIST_FAST_DT : Nat := 5
def HIST_BIN_CAP : Nat := 512

/-- A percentage from 0 to 100. -/
def pctU8 (v : F) : UInt8 :=
  let v := if v < 0 then 0 else v
  let v := if v > 100 then 100 else v
  UInt8.ofNat (CFloat.toUInt32 (v + 0.5))

/-- The worst tick in units of 50 µs. -/
def loopU8 (lm : UInt32) : UInt8 := (if lm / 50 > 250 then 250 else lm / 50).toUInt8

/-- The readers of the peaks. -/
inductive Peak where
  | hist
  | sysDyn
deriving DecidableEq

structure Hist where
  accel : Ring UInt8 Ring.histFast
  pwml : Ring UInt8 Ring.histFast
  pwmr : Ring UInt8 Ring.histFast
  loop : Ring UInt8 Ring.histFast
  tick : Int

/-- Where the end of `tickOnce` stands in its loop over the peaks. -/
inductive ControlPc where
  | idle
  | compare (who : Peak) (dur : UInt32)
  | store (who : Peak) (dur : UInt32)

/-- Behind the peak of this reader. -/
def ControlPc.after (dur : UInt32) : Peak → ControlPc
  | .hist => .compare .sysDyn dur
  | .sysDyn => .idle

/-- Where `histSample` stands: it has loaded its peak, or it is not running. -/
inductive TimerPc where
  | idle
  | reset (lm : UInt32)

/-- Where the web task stands: it has loaded the peak of the system tab, or it waits for the
rings with the time it has taken. -/
inductive HttpdPc where
  | idle
  | reset
  | encode (now : Int)

/-- `m_hist`, `m_loop_max_us`, the reply that is kept with its time, and the three tasks. -/
structure Telemetry where
  hist : Hist
  loopMax : Peak → UInt32
  bin : List UInt8
  binUs : Int
  control : ControlPc
  timer : TimerPc
  httpd : HttpdPc

namespace Telemetry

def boot : Telemetry where
  hist := { accel := .new _ 0, pwml := .new _ 0, pwmr := .new _ 0, loop := .new _ 0, tick := 0 }
  loopMax _ := 0
  bin := []
  binUs := -1
  control := .idle
  timer := .idle
  httpd := .idle

def setPeak (s : Telemetry) (who : Peak) (v : UInt32) : Telemetry :=
  { s with loopMax := Function.update s.loopMax who v }

theorem setPeak_self (s : Telemetry) (who : Peak) (v : UInt32) :
    (s.setPeak who v).loopMax who = v := Function.update_self ..

theorem setPeak_other (s : Telemetry) {who who' : Peak} (v : UInt32) (h : who' ≠ who) :
    (s.setPeak who v).loopMax who' = s.loopMax who' := Function.update_of_ne h ..

/-- The next access of `tickOnce`. -/
def controlStep (s : Telemetry) : Telemetry :=
  match s.control with
  | .idle => s
  | .compare who dur =>
    { s with control := if dur > s.loopMax who then .store who dur else .after dur who }
  | .store who dur => { s.setPeak who dur with control := .after dur who }

/-- `histSample` up to the reading of its peak, with the answer of the mutex and the status,
if its mutex is free. -/
def histSample (s : Telemetry) (free : Bool) (st : Option (KartStatus F)) : Option Telemetry :=
  if !free then some s
  else match st with
    | none => some s
    | some st =>
      if s.hist.tick % HIST_FAST_DT = 0 then do
        let accel ← s.hist.accel.push (pctU8 (CFloat.fabs st.fwd * 100))
        let pwml ← s.hist.pwml.push (pctU8 (CFloat.fabs st.outL * 100))
        let pwmr ← s.hist.pwmr.push (pctU8 (CFloat.fabs st.outR * 100))
        some { s with
          hist := { s.hist with accel := accel, pwml := pwml, pwmr := pwmr }
          timer := .reset (s.loopMax .hist) }
      else do
        let tick ← CInt.add s.hist.tick 1
        some { s with hist := { s.hist with tick := tick } }

/-- The rest of it: the peak is reset, and its value pushed. -/
def timerStep (s : Telemetry) : Option Telemetry :=
  match s.timer with
  | .idle => some s
  | .reset lm => do
    let loop ← s.hist.loop.push (loopU8 lm)
    let tick ← CInt.add s.hist.tick 1
    some { s.setPeak .hist 0 with
      hist := { s.hist with loop := loop, tick := tick }
      timer := .idle }

end Telemetry

/-! ### The reply -/

section Encoders

variable {σ : Type}

def encBytes (field : Nat) (data : List UInt8) : Encoder σ :=
  andThen (encodeTag field 2) (encodeString data)

def encHist (accel pwml pwmr loop : List UInt8) : Encoder σ :=
  all [andThen (encodeTag 1 0) (encodeVarint HIST_FAST_DT), encBytes 4 accel, encBytes 5 pwml,
    encBytes 6 pwmr, encBytes 11 loop]

end Encoders

/-- The `Msg` in a buffer of its own. -/
def encodeHist (accel pwml pwmr loop : List UInt8) : Option (List UInt8) :=
  (andThen (encodeTag 4 2) (submessage (encHist accel pwml pwmr loop)) (.buffer HIST_BIN_CAP)
    ()).map fun r => r.1.written

/-- The kept reply is less than a second old. -/
def Telemetry.keeps (s : Telemetry) (now : Int) : Bool := s.binUs ≥ 0 ∧ now - s.binUs < 1000000

/-- `buildHistPb` behind the kept reply, once it has `m_hist_mtx`.  A failed encoder gives an
empty reply. -/
def Telemetry.buildHistPb (s : Telemetry) (now : Int) : Option (List UInt8 × Telemetry) := do
  let accel ← s.hist.accel.linear 0
  let pwml ← s.hist.pwml.linear 0
  let pwmr ← s.hist.pwmr.linear 0
  let loop ← s.hist.loop.linear 0
  match encodeHist accel pwml pwmr loop with
  | none => some ([], { s with httpd := .idle })
  | some bytes => some (bytes, { s with bin := bytes, binUs := now, httpd := .idle })

/-- The next access of the web task; it waits while `histSample` runs. -/
def Telemetry.httpdStep (s : Telemetry) : Option Telemetry :=
  match s.httpd with
  | .idle => some s
  | .reset => some { s.setPeak .sysDyn 0 with httpd := .idle }
  | .encode now =>
    match s.timer with
    | .idle => (s.buildHistPb now).map Prod.snd
    | .reset _ => some s

/-! ### Runs -/

inductive TelemetryEvent (F : Type) where
  /-- A tick of the control loop that took `dur` µs comes to its end. -/
  | tick (dur : UInt32)
  /-- Its next access. -/
  | control
  /-- The timer. -/
  | sample (free : Bool) (st : Option (KartStatus F))
  /-- The rest of what it does. -/
  | timer
  /-- The system tab reads its peak. -/
  | sysDyn
  /-- A client asks for the charts. -/
  | hist (now : Int)
  /-- The next access of the web task. -/
  | httpd

/-- A task that is not idle takes no new call. -/
def Telemetry.step (s : Telemetry) : TelemetryEvent F → Option Telemetry
  | .tick dur =>
    match s.control with
    | .idle => some { s with control := .compare .hist dur }
    | _ => some s
  | .control => some s.controlStep
  | .sample free st =>
    match s.timer with
    | .idle => s.histSample free st
    | .reset _ => some s
  | .timer => s.timerStep
  | .sysDyn =>
    match s.httpd with
    | .idle => some { s with httpd := .reset }
    | _ => some s
  | .hist now =>
    match s.httpd with
    | .idle => some (if s.keeps now then s else { s with httpd := .encode now })
    | _ => some s
  | .httpd => s.httpdStep

/-- The reply that a step sends, with the time that its request has taken. -/
def Telemetry.reply (s : Telemetry) : TelemetryEvent F → Option (Int × List UInt8)
  | .hist now =>
    match s.httpd with
    | .idle => if s.keeps now then some (now, s.bin) else none
    | _ => none
  | .httpd =>
    match s.httpd, s.timer with
    | .encode now, .idle => (s.buildHistPb now).map fun r => (now, r.1)
    | _, _ => none
  | _ => none

/-- The peak that the system tab is told. -/
def Telemetry.told (s : Telemetry) : TelemetryEvent F → Option UInt32
  | .sysDyn =>
    match s.httpd with
    | .idle => some (s.loopMax .sysDyn)
    | _ => none
  | _ => none

/-! ### What the page is meant to see -/

/-- A status, the ticks that have landed on the peak when it was read, and those that have
landed before it was reset. -/
structure Point (F : Type) where
  st : KartStatus F
  ticks : List UInt32
  missed : List UInt32

/-- The longest of these ticks. -/
def worst (ticks : List UInt32) : UInt32 := ticks.foldl max 0

/-- What has happened. -/
structure Chart (F : Type) where
  points : List (Point F)
  /-- The calls of the timer that got a status and have ended. -/
  calls : Nat
  /-- The ticks that have landed on a peak since it was last reset. -/
  landed : Peak → List UInt32
  /-- The status of a call that has read the peak, and the ticks that had landed. -/
  taken : Option (KartStatus F × List UInt32)
  /-- The ticks that have come to their end. -/
  begun : List UInt32

namespace Chart

def empty : Chart F :=
  { points := [], calls := 0, landed := fun _ => [], taken := none, begun := [] }

def land (c : Chart F) (who : Peak) (dur : UInt32) : Chart F :=
  { c with landed := Function.update c.landed who (c.landed who ++ [dur]) }

def reset (c : Chart F) (who : Peak) : Chart F :=
  { c with landed := Function.update c.landed who [] }

/-- What a step of the firmware adds.  A tick lands on a peak when it has not been longer, or
when it is stored; every fifth call of the timer makes a point. -/
def record (s : Telemetry) (c : Chart F) : TelemetryEvent F → Chart F
  | .tick dur =>
    match s.control with
    | .idle => { c with begun := c.begun ++ [dur] }
    | _ => c
  | .control =>
    match s.control with
    | .idle => c
    | .compare who dur => if dur > s.loopMax who then c else c.land who dur
    | .store who dur => c.land who dur
  | .sample true (some st) =>
    match c.taken with
    | none =>
      if c.calls % 5 = 0 then { c with taken := some (st, c.landed .hist) }
      else { c with calls := c.calls + 1 }
    | some _ => c
  | .timer =>
    match c.taken with
    | none => c
    | some (st, ticks) =>
      { c.reset .hist with
        points := c.points ++ [⟨st, ticks, (c.landed .hist).drop ticks.length⟩]
        calls := c.calls + 1
        taken := none }
  | .httpd =>
    match s.httpd with
    | .reset => c.reset .sysDyn
    | _ => c
  | _ => c

/-- The last ten minutes. -/
def window (c : Chart F) : List (Point F) := c.points.drop (c.points.length - 120)

end Chart

/-- The firmware and the chart of what has happened. -/
def runChart (events : List (TelemetryEvent F)) : Option (Telemetry × Chart F) :=
  events.foldlM (fun x e => (x.1.step e).map fun s' => (s', x.2.record x.1 e)) (.boot, .empty)

/-- The calls of the timer. -/
def TelemetryEvent.isSample : TelemetryEvent F → Bool
  | .sample _ _ => true
  | _ => false

def Point.accel (p : Point F) : UInt8 := pctU8 (CFloat.fabs p.st.fwd * 100)
def Point.pwml (p : Point F) : UInt8 := pctU8 (CFloat.fabs p.st.outL * 100)
def Point.pwmr (p : Point F) : UInt8 := pctU8 (CFloat.fabs p.st.outR * 100)
def Point.loop (p : Point F) : UInt8 := loopU8 (worst p.ticks)

/-- All its ticks. -/
def Point.all (p : Point F) : List UInt32 := p.ticks ++ p.missed

/-- The message with the points. -/
def histMessage (points : List (Point F)) : List UInt8 :=
  let fields : List WireField :=
    [⟨1, .varint 5⟩, ⟨4, .bytes (points.map Point.accel)⟩, ⟨5, .bytes (points.map Point.pwml)⟩,
      ⟨6, .bytes (points.map Point.pwmr)⟩, ⟨11, .bytes (points.map Point.loop)⟩]
  (⟨4, .bytes (fields.flatMap WireField.encode)⟩ : WireField).encode

/-! ### The encoding -/

section Writes

variable {σ : Type} (I : σ → Prop)

theorem writes_encBytes (field : UInt32) (hfield : field.toNat < 15) {data : List UInt8}
    (h : data.length < 128) :
    Writes I (encBytes field.toNat data) (⟨field, .bytes data⟩ : WireField).encode :=
  writes_field I field.toNat 2 rfl rfl (by omega) (writes_encodeString I (by omega))

theorem writes_dtFast :
    Writes I (andThen (encodeTag 1 0) (encodeVarint HIST_FAST_DT))
      (⟨1, .varint 5⟩ : WireField).encode := by
  have hnumber := writes_varint I HIST_FAST_DT
  rw [Varint.encode_eq (by decide)] at hnumber
  exact writes_field I 1 0 rfl rfl (by decide) hnumber

/-- Up to 120 points are encoded, whatever they are. -/
theorem encodeHist_eq {points : List (Point F)} (h : points.length ≤ 120) :
    encodeHist (points.map Point.accel) (points.map Point.pwml) (points.map Point.pwmr)
        (points.map Point.loop) = some (histMessage points) ∧
      (histMessage points).length ≤ HIST_BIN_CAP := by
  have hlen : ∀ series : Point F → UInt8, (points.map series).length < 128 := by
    intro series
    rw [List.length_map]
    omega
  have hbytes : ∀ (field : UInt32) (series : Point F → UInt8), field.toNat < 15 →
      (⟨field, .bytes (points.map series)⟩ : WireField).encode.length ≤ 122 := by
    intro field series hfield
    have hle := length_bytes_le field hfield (hlen series)
    rw [List.length_map] at hle
    omega
  let body : List UInt8 := ([⟨1, .varint 5⟩, ⟨4, .bytes (points.map Point.accel)⟩,
    ⟨5, .bytes (points.map Point.pwml)⟩, ⟨6, .bytes (points.map Point.pwmr)⟩,
    ⟨11, .bytes (points.map Point.loop)⟩] : List WireField).flatMap WireField.encode
  have hbody : body.length ≤ 490 := by
    have haccel := hbytes 4 Point.accel (by decide)
    have hpwml := hbytes 5 Point.pwml (by decide)
    have hpwmr := hbytes 6 Point.pwmr (by decide)
    have hloop := hbytes 11 Point.loop (by decide)
    have hdt : (⟨1, .varint 5⟩ : WireField).encode.length ≤ 2 := by
      have htag := length_varint_le (n := 8) (k := 1) (by omega) (by omega)
      have hvalue := length_varint_le (n := 5) (k := 1) (by omega) (by omega)
      change (Varint.varint 8 ++ Varint.varint 5).length ≤ 2
      rw [List.length_append]
      omega
    simp only [body, List.flatMap_cons, List.flatMap_nil, List.length_append, List.length_nil]
    omega
  have hmessage : (histMessage points).length ≤ HIST_BIN_CAP := by
    have hfirst := length_varint_le (n := 34) (k := 1) (by omega) (by omega)
    have hsecond := length_varint_le (n := body.length) (k := 2) (by omega) (by omega)
    change (Varint.varint 34 ++ (Varint.varint body.length ++ body)).length ≤ 512
    simp only [List.length_append]
    omega
  refine ⟨?_, hmessage⟩
  have hwrites : Writes (fun _ : Unit => True) (encHist (points.map Point.accel)
      (points.map Point.pwml) (points.map Point.pwmr) (points.map Point.loop)) body :=
    writes_andThen (writes_dtFast _) (writes_andThen (writes_encBytes _ 4 (by decide) (hlen _))
      (writes_andThen (writes_encBytes _ 5 (by decide) (hlen _))
        (writes_andThen (writes_encBytes _ 6 (by decide) (hlen _))
          (writes_andThen (writes_encBytes _ 11 (by decide) (hlen _)) (writes_nothing _)))))
  have hsub := writes_submessage hwrites
  rw [Varint.encode_eq (by omega)] at hsub
  have hmsg : Writes (fun _ : Unit => True) (andThen (encodeTag 4 2) (submessage _))
      (histMessage points) :=
    writes_field _ 4 2 rfl rfl (by decide) hsub
  rw [encodeHist, hmsg.buffer HIST_BIN_CAP trivial, if_pos hmessage]

end Writes

/-! ### The firmware holds the chart -/

/-- The tick that has not yet landed on the peak of the charts. -/
def ControlPc.pending : ControlPc → List UInt32
  | .compare .hist dur => [dur]
  | .store .hist dur => [dur]
  | _ => []

/-- The points, and the one whose loop is not yet pushed. -/
def Chart.started (c : Chart F) : List (Point F) :=
  match c.taken with
  | none => c.points
  | some (st, ticks) => c.points ++ [⟨st, ticks, []⟩]

/-- Where the timer stands, by its call. -/
def Chart.timer (c : Chart F) : TimerPc :=
  match c.taken with
  | none => .idle
  | some (_, ticks) => .reset (worst ticks)

/-- The rings hold the points, and a peak is the worst of the ticks that have landed on it
since its last reset. -/
structure Refines (s : Telemetry) (c : Chart F) : Prop where
  accel : s.hist.accel.Represents (c.started.map Point.accel)
  pwml : s.hist.pwml.Represents (c.started.map Point.pwml)
  pwmr : s.hist.pwmr.Represents (c.started.map Point.pwmr)
  loop : s.hist.loop.Represents (c.points.map Point.loop)
  timer : s.timer = c.timer
  tick : s.hist.tick = c.calls
  peak : ∀ who, s.loopMax who = worst (c.landed who)
  taken : ∀ st ticks, c.taken = some (st, ticks) → ticks <+: c.landed .hist
  storing : ∀ who dur, s.control = .store who dur → s.loopMax who < dur
  begun : c.begun = c.points.flatMap Point.all ++ c.landed .hist ++ s.control.pending

theorem worst_append (ticks : List UInt32) (dur : UInt32) :
    worst (ticks ++ [dur]) = if dur > worst ticks then dur else worst ticks := by
  rw [worst, List.foldl_append]
  change (if worst ticks ≤ dur then dur else worst ticks) = _
  split_ifs with hle hlt hlt
  · rfl
  · exact UInt32.le_antisymm (UInt32.not_lt.mp hlt) hle
  · exact absurd (UInt32.le_of_lt hlt) hle
  · rfl

variable {s : Telemetry} {c : Chart F} {events : List (TelemetryEvent F)}

namespace Chart

theorem land_self (c : Chart F) (who : Peak) (dur : UInt32) :
    (c.land who dur).landed who = c.landed who ++ [dur] := Function.update_self ..

theorem land_other (c : Chart F) {who who' : Peak} (dur : UInt32) (h : who' ≠ who) :
    (c.land who dur).landed who' = c.landed who' := Function.update_of_ne h ..

theorem reset_self (c : Chart F) (who : Peak) : (c.reset who).landed who = [] :=
  Function.update_self ..

theorem reset_other (c : Chart F) {who who' : Peak} (h : who' ≠ who) :
    (c.reset who).landed who' = c.landed who' := Function.update_of_ne h ..

end Chart

/-- Behind a peak the tick has landed on it. -/
theorem ControlPc.after_pending (who : Peak) (dur : UInt32) :
    (ControlPc.after dur who).pending = [] ∧ ∀ who' dur', ControlPc.after dur who ≠ .store who' dur' := by
  cases who
  · exact ⟨rfl, fun _ _ h => nomatch h⟩
  · exact ⟨rfl, fun _ _ h => nomatch h⟩

/-- A tick lands on a peak. -/
theorem Refines.land (h : Refines s c) {who : Peak} {dur : UInt32} {s' : Telemetry}
    (hhist : s'.hist = s.hist) (htimer : s'.timer = s.timer)
    (hcontrol : s'.control = .after dur who)
    (hpending : s.control.pending = if who = .hist then [dur] else [])
    (hself : s'.loopMax who = if dur > s.loopMax who then dur else s.loopMax who)
    (hother : ∀ who' ≠ who, s'.loopMax who' = s.loopMax who') :
    Refines s' (c.land who dur) := by
  obtain ⟨hafter, hnever⟩ := ControlPc.after_pending who dur
  refine ⟨hhist ▸ h.accel, hhist ▸ h.pwml, hhist ▸ h.pwmr, hhist ▸ h.loop, htimer.trans h.timer,
    hhist ▸ h.tick, fun who' => ?_, fun st ticks htaken => ?_, fun who' dur' hstore => ?_, ?_⟩
  · by_cases hsame : who' = who
    · subst hsame
      rw [hself, c.land_self, worst_append, h.peak]
    · rw [hother who' hsame, c.land_other dur hsame, h.peak]
  · have hprefix := h.taken st ticks htaken
    by_cases hsame : Peak.hist = who
    · subst hsame
      rw [c.land_self]
      exact hprefix.trans (List.prefix_append _ _)
    · rw [c.land_other dur hsame]
      exact hprefix
  · rw [hcontrol] at hstore
    exact absurd hstore (hnever who' dur')
  · have hbegun := h.begun
    rw [hpending] at hbegun
    rw [hcontrol, hafter, List.append_nil]
    change c.begun = _
    rw [hbegun]
    by_cases hsame : who = Peak.hist
    · subst hsame
      rw [if_pos rfl, c.land_self, List.append_assoc]
      rfl
    · rw [if_neg hsame, List.append_nil, c.land_other dur (Ne.symm hsame)]
      rfl

theorem Refines.control (h : Refines s c) : Refines s.controlStep (c.record s .control) := by
  unfold Telemetry.controlStep Chart.record
  cases hpc : s.control with
  | idle => exact h
  | compare who dur =>
    dsimp only
    split_ifs with hlonger
    · refine ⟨h.accel, h.pwml, h.pwmr, h.loop, h.timer, h.tick, h.peak, h.taken, ?_, ?_⟩
      · rintro who' dur' ⟨⟩
        exact hlonger
      · have hbegun := h.begun
        rw [hpc] at hbegun
        rw [hbegun]
        cases who <;> rfl
    · refine h.land rfl rfl rfl ?_ (if_neg hlonger).symm fun _ _ => rfl
      rw [hpc]
      cases who <;> rfl
  | store who dur =>
    refine h.land rfl rfl rfl ?_ ?_ fun who' hne => s.setPeak_other dur hne
    · rw [hpc]
      cases who <;> rfl
    · rw [if_pos (h.storing who dur hpc)]
      exact s.setPeak_self who dur

theorem Refines.tickDone (h : Refines s c) (dur : UInt32) :
    ∃ s', s.step (.tick dur : TelemetryEvent F) = some s' ∧ s'.bin = s.bin ∧
      s'.binUs = s.binUs ∧ Refines s' (c.record s (.tick dur)) := by
  unfold Telemetry.step Chart.record
  have hbegun := h.begun
  cases hpc : s.control with
  | idle =>
    rw [hpc] at hbegun
    refine ⟨_, rfl, rfl, rfl, h.accel, h.pwml, h.pwmr, h.loop, h.timer, h.tick, h.peak, h.taken,
      fun _ _ hstore => (nomatch hstore), ?_⟩
    rw [hbegun]
    simp only [ControlPc.pending, List.append_nil]
  | compare who dur' => exact ⟨s, rfl, rfl, rfl, h⟩
  | store who dur' => exact ⟨s, rfl, rfl, rfl, h⟩

/-- The reset of a peak. -/
theorem Refines.resets (h : Refines s c) (who : Peak) :
    (∀ who', (s.setPeak who 0).loopMax who' = worst ((c.reset who).landed who')) ∧
      ∀ who' dur, s.control = .store who' dur → (s.setPeak who 0).loopMax who' < dur := by
  refine ⟨fun who' => ?_, fun who' dur hstore => ?_⟩
  · by_cases hsame : who' = who
    · subst hsame
      rw [s.setPeak_self, c.reset_self]
      rfl
    · rw [s.setPeak_other 0 hsame, c.reset_other hsame, h.peak]
  · have hless := h.storing who' dur hstore
    by_cases hsame : who' = who
    · subst hsame
      rw [s.setPeak_self]
      exact UInt32.lt_of_le_of_lt (UInt32.zero_le) hless
    · rwa [s.setPeak_other 0 hsame]

/-- The calls that have ended, and the one under way. -/
def Chart.begunCalls (c : Chart F) : Nat := c.calls + c.taken.isSome.toNat

/-- A call of the timer that makes no point. -/
theorem Refines.count (h : Refines s c) :
    Refines { s with hist := { s.hist with tick := (c.calls + 1 : Int) } }
      { c with calls := c.calls + 1 } where
  accel := h.accel
  pwml := h.pwml
  pwmr := h.pwmr
  loop := h.loop
  timer := h.timer
  tick := rfl
  peak := h.peak
  taken := h.taken
  storing := h.storing
  begun := h.begun

/-- A fifth call pushes three series and reads the peak. -/
theorem Refines.point (h : Refines s c) (htaken : c.taken = none) (st : KartStatus F)
    (hfifth : c.calls % 5 = 0) :
    ∃ s', s.histSample true (some st) = some s' ∧ s'.bin = s.bin ∧ s'.binUs = s.binUs ∧
      Refines s' { c with taken := some (st, c.landed .hist) } := by
  let p : Point F := ⟨st, c.landed .hist, []⟩
  have hstarted : c.started = c.points := by rw [Chart.started, htaken]
  have hmap : ∀ series : Point F → UInt8,
      (c.points ++ [p]).map series = c.started.map series ++ [series p] := by
    intro series
    rw [hstarted, List.map_append, List.map_singleton]
  obtain ⟨accel, haccel, hra⟩ := h.accel.push p.accel
  obtain ⟨pwml, hpwml, hrl⟩ := h.pwml.push p.pwml
  obtain ⟨pwmr, hpwmr, hrr⟩ := h.pwmr.push p.pwmr
  rw [← hmap] at hra hrl hrr
  have hnow : s.hist.tick % HIST_FAST_DT = 0 := by
    rw [h.tick]
    exact_mod_cast hfifth
  have hcall : s.histSample true (some st) = some { s with
      hist := { s.hist with accel := accel, pwml := pwml, pwmr := pwmr }
      timer := .reset (s.loopMax .hist) } := by
    unfold Telemetry.histSample
    change (if s.hist.tick % HIST_FAST_DT = 0 then
      (s.hist.accel.push p.accel).bind fun accel => (s.hist.pwml.push p.pwml).bind fun pwml =>
        (s.hist.pwmr.push p.pwmr).bind fun pwmr => _ else _) = _
    rw [if_pos hnow, haccel, Option.bind_some, hpwml, Option.bind_some, hpwmr, Option.bind_some]
  refine ⟨_, hcall, rfl, rfl, hra, hrl, hrr, h.loop, ?_, h.tick, h.peak, ?_, h.storing, h.begun⟩
  · exact congrArg TimerPc.reset (h.peak .hist)
  · rintro _ _ ⟨⟩
    exact List.prefix_refl _

theorem Refines.sample (h : Refines s c) (free : Bool) (st : Option (KartStatus F))
    (hroom : c.calls + 1 ≤ CInt.INT_MAX) :
    ∃ s', s.step (.sample free st) = some s' ∧ s'.bin = s.bin ∧ s'.binUs = s.binUs ∧
      Refines s' (c.record s (.sample free st)) := by
  have htimer := h.timer
  cases htaken : c.taken with
  | some taken =>
    rw [Chart.timer, htaken] at htimer
    have hstep : s.step (.sample free st) = some s := by simp only [Telemetry.step, htimer]
    have hrecord : c.record s (.sample free st) = c := by
      cases free <;> cases st <;> simp only [Chart.record, htaken]
    rw [hrecord]
    exact ⟨s, hstep, rfl, rfl, h⟩
  | none =>
    rw [Chart.timer, htaken] at htimer
    have hstep : s.step (.sample free st) = s.histSample free st := by
      simp only [Telemetry.step, htimer]
    rw [hstep]
    cases free with
    | false => exact ⟨s, rfl, rfl, rfl, h⟩
    | true =>
      cases st with
      | none => exact ⟨s, rfl, rfl, rfl, h⟩
      | some st =>
        simp only [Chart.record, htaken]
        split_ifs with hfifth
        · exact h.point htaken st hfifth
        · have hnot : ¬ s.hist.tick % HIST_FAST_DT = 0 := by
            rw [h.tick]
            exact_mod_cast hfifth
          have hadd : CInt.add s.hist.tick 1 = some (c.calls + 1 : Int) := by
            rw [h.tick]
            exact CInt.fit_eq_some (by rw [CInt.INT_MIN]; omega) hroom
          have hcount := h.count
          rw [htaken] at hcount
          refine ⟨_, ?_, ?_, ?_, hcount⟩
          all_goals try rfl
          unfold Telemetry.histSample
          change (if s.hist.tick % HIST_FAST_DT = 0 then _ else
            (CInt.add s.hist.tick 1).bind fun tick => _) = _
          rw [if_neg hnot, hadd, Option.bind_some]

/-- The end of a fifth call. -/
theorem Refines.timerStep (h : Refines s c) (hroom : (c.begunCalls : Int) ≤ CInt.INT_MAX) :
    ∃ s', s.timerStep = some s' ∧ s'.bin = s.bin ∧ s'.binUs = s.binUs ∧
      Refines s' (c.record s .timer) := by
  have htimer := h.timer
  unfold Telemetry.timerStep Chart.record
  cases htaken : c.taken with
  | none =>
    rw [Chart.timer, htaken] at htimer
    rw [htimer]
    exact ⟨s, rfl, rfl, rfl, h⟩
  | some taken =>
    obtain ⟨st, ticks⟩ := taken
    rw [Chart.timer, htaken] at htimer
    rw [Chart.begunCalls, htaken] at hroom
    let p : Point F := ⟨st, ticks, (c.landed .hist).drop ticks.length⟩
    obtain ⟨loop, hloop, hro⟩ := h.loop.push p.loop
    have hadd : CInt.add s.hist.tick 1 = some (c.calls + 1 : Int) := by
      rw [h.tick]
      exact CInt.fit_eq_some (by rw [CInt.INT_MIN]; omega) hroom
    have hcall : (do
        let loop ← s.hist.loop.push (loopU8 (worst ticks))
        let tick ← CInt.add s.hist.tick 1
        some { s.setPeak .hist 0 with
          hist := { s.hist with loop := loop, tick := tick }
          timer := TimerPc.idle }) =
        some { s.setPeak .hist 0 with
          hist := { s.hist with loop := loop, tick := (c.calls + 1 : Int) }
          timer := TimerPc.idle } := by
      change (s.hist.loop.push p.loop).bind (fun loop => (CInt.add s.hist.tick 1).bind fun tick => _)
        = _
      rw [hloop, Option.bind_some, hadd, Option.bind_some]
    have hstarted : c.started = c.points ++ [⟨st, ticks, []⟩] := by rw [Chart.started, htaken]
    have hmap : ∀ series : Point F → UInt8, (∀ missed, series ⟨st, ticks, missed⟩ = series p) →
        c.started.map series = (c.points ++ [p]).map series := by
      intro series hseries
      rw [hstarted, List.map_append, List.map_append, List.map_singleton, List.map_singleton,
        hseries]
    have haccel := h.accel
    have hpwml := h.pwml
    have hpwmr := h.pwmr
    rw [hmap _ fun _ => rfl] at haccel hpwml hpwmr
    obtain ⟨hpeak, hstoring⟩ := h.resets .hist
    rw [htimer]
    refine ⟨_, hcall, rfl, rfl, haccel, hpwml, hpwmr, ?_, rfl, rfl, hpeak,
      fun _ _ hnone => absurd hnone.symm (Option.some_ne_none _), hstoring, ?_⟩
    · rw [List.map_append, List.map_singleton]
      exact hro
    · have hall : p.all = c.landed .hist := by
        obtain ⟨rest, hrest⟩ := h.taken st ticks htaken
        change ticks ++ (c.landed .hist).drop ticks.length = c.landed .hist
        rw [← hrest, List.drop_left]
      change c.begun = (c.points ++ [p]).flatMap Point.all ++ (c.reset .hist).landed .hist ++
        s.control.pending
      rw [c.reset_self, List.append_nil, List.flatMap_append, List.flatMap_singleton, hall]
      exact h.begun

/-- The system tab resets its own peak only. -/
theorem Refines.sysDyn (h : Refines s c) :
    Refines { s.setPeak .sysDyn 0 with httpd := .idle } (c.reset .sysDyn) := by
  obtain ⟨hpeak, hstoring⟩ := h.resets .sysDyn
  have hother : (c.reset .sysDyn).landed .hist = c.landed .hist :=
    c.reset_other (show Peak.hist ≠ .sysDyn by decide)
  refine ⟨h.accel, h.pwml, h.pwmr, h.loop, h.timer, h.tick, hpeak, ?_, hstoring, ?_⟩
  · rw [hother]
    exact h.taken
  · rw [hother]
    exact h.begun

/-- What the web task keeps to itself is no part of the chart. -/
theorem Refines.serve (h : Refines s c) (bin : List UInt8) (binUs : Int) (httpd : HttpdPc) :
    Refines { s with bin := bin, binUs := binUs, httpd := httpd } c :=
  ⟨h.accel, h.pwml, h.pwmr, h.loop, h.timer, h.tick, h.peak, h.taken, h.storing, h.begun⟩

theorem Chart.window_length (c : Chart F) : c.window.length ≤ 120 := by
  rw [Chart.window, List.length_drop]
  omega

/-- Outside `histSample` a reply is the window of the chart. -/
theorem Refines.buildHistPb (h : Refines s c) (hidle : s.timer = .idle) (now : Int) :
    s.buildHistPb now = some (histMessage c.window,
      { s with bin := histMessage c.window, binUs := now, httpd := .idle }) := by
  have hstarted : c.started = c.points := by
    have htimer := h.timer
    rw [hidle, Chart.timer] at htimer
    rw [Chart.started]
    cases htaken : c.taken with
    | none => rfl
    | some taken =>
      rw [htaken] at htimer
      exact nomatch htimer
  have hlinear : ∀ {r : Ring UInt8 Ring.histFast} (series : Point F → UInt8),
      r.Represents (c.points.map series) → r.linear 0 = some (c.window.map series) := by
    intro r series hr
    rw [hr.linear (by decide), List.length_map, ← List.map_drop]
    rfl
  have haccel := h.accel
  have hpwml := h.pwml
  have hpwmr := h.pwmr
  rw [hstarted] at haccel hpwml hpwmr
  unfold Telemetry.buildHistPb
  rw [hlinear _ haccel, hlinear _ hpwml, hlinear _ hpwmr, hlinear _ h.loop]
  simp only [Option.bind_eq_bind, Option.bind_some, (encodeHist_eq c.window_length).1]

/-! ### Runs and replies -/

/-- These bytes are the chart as it was when a request with the time `t` got the rings. -/
def Sent (events : List (TelemetryEvent F)) (t : Int) (bytes : List UInt8) : Prop :=
  ∃ pre post s c, events = pre ++ .httpd :: post ∧ runChart pre = some (s, c) ∧
    s.httpd = .encode t ∧ bytes = histMessage c.window ∧ bytes.length ≤ HIST_BIN_CAP

theorem Sent.append {t : Int} {bytes : List UInt8} (h : Sent events t bytes)
    (e : TelemetryEvent F) : Sent (events ++ [e]) t bytes := by
  obtain ⟨pre, post, s, c, hevents, hrun⟩ := h
  refine ⟨pre, post ++ [e], s, c, ?_, hrun⟩
  rw [hevents, List.append_assoc, List.cons_append]

/-- What is kept has been sent. -/
def Kept (s : Telemetry) (events : List (TelemetryEvent F)) : Prop :=
  s.binUs ≥ 0 → Sent events s.binUs s.bin

theorem Kept.append (h : Kept s events) (e : TelemetryEvent F) {s' : Telemetry}
    (hbin : s'.bin = s.bin) (hbinUs : s'.binUs = s.binUs) : Kept s' (events ++ [e]) := by
  intro hpos
  rw [hbinUs] at hpos ⊢
  rw [hbin]
  exact (h hpos).append e

/-- The web task's own step. -/
theorem Refines.httpd (h : Refines s c) (hkept : Kept s events)
    (hrun : runChart events = some (s, c)) :
    ∃ s', s.httpdStep = some s' ∧ Refines s' (c.record s .httpd) ∧
      Kept s' (events ++ [.httpd]) ∧
      ∀ now bytes, s.reply (.httpd : TelemetryEvent F) = some (now, bytes) →
        Sent (events ++ [.httpd]) now bytes := by
  unfold Telemetry.httpdStep Chart.record Telemetry.reply
  cases hpc : s.httpd with
  | idle => exact ⟨s, rfl, h, hkept.append _ rfl rfl, fun _ _ hnone => (nomatch hnone)⟩
  | reset =>
    exact ⟨_, rfl, h.sysDyn, hkept.append _ rfl rfl, fun _ _ hnone => (nomatch hnone)⟩
  | encode now =>
    cases htimer : s.timer with
    | reset lm => exact ⟨s, rfl, h, hkept.append _ rfl rfl, fun _ _ hnone => (nomatch hnone)⟩
    | idle =>
      have hbuild := h.buildHistPb htimer now
      have hsent : Sent (events ++ [.httpd]) now (histMessage c.window) :=
        ⟨events, [], s, c, rfl, hrun, hpc, rfl, (encodeHist_eq c.window_length).2⟩
      simp only [hbuild, Option.map_some]
      refine ⟨_, rfl, h.serve _ _ _, fun _ => hsent, ?_⟩
      rintro now' bytes ⟨⟩
      exact hsent

/-- A client asks. -/
theorem Refines.asks (h : Refines s c) (hkept : Kept s events) (now : Int) :
    ∃ s', s.step (.hist now : TelemetryEvent F) = some s' ∧ Refines s' c ∧
      Kept s' (events ++ [.hist now]) ∧
      ∀ now' bytes, s.reply (.hist now : TelemetryEvent F) = some (now', bytes) →
        ∃ t, now' - t < 1000000 ∧ Sent (events ++ [.hist now]) t bytes := by
  unfold Telemetry.step Telemetry.reply
  cases hpc : s.httpd with
  | idle =>
    dsimp only
    split_ifs with hkeeps
    · refine ⟨s, rfl, h, hkept.append _ rfl rfl, ?_⟩
      rintro now' bytes ⟨⟩
      have hyoung : s.binUs ≥ 0 ∧ now - s.binUs < 1000000 := of_decide_eq_true hkeeps
      exact ⟨s.binUs, hyoung.2, (hkept hyoung.1).append _⟩
    · exact ⟨_, rfl, h.serve _ _ _, hkept.append _ rfl rfl, fun _ _ hnone => (nomatch hnone)⟩
  | _ => exact ⟨s, rfl, h, hkept.append _ rfl rfl, fun _ _ hnone => (nomatch hnone)⟩

/-- One step of the firmware, and what it sends. -/
theorem Refines.step (h : Refines s c) (hkept : Kept s events)
    (hrun : runChart events = some (s, c)) (e : TelemetryEvent F)
    (hroom : (c.begunCalls + e.isSample.toNat : Int) ≤ CInt.INT_MAX) :
    ∃ s', s.step e = some s' ∧ Refines s' (c.record s e) ∧ Kept s' (events ++ [e]) ∧
      ∀ now bytes, s.reply e = some (now, bytes) →
        ∃ t, now - t < 1000000 ∧ Sent (events ++ [e]) t bytes := by
  cases e with
  | tick dur =>
    obtain ⟨s', hs', hbin, hbinUs, h'⟩ := h.tickDone dur
    exact ⟨s', hs', h', hkept.append _ hbin hbinUs, fun _ _ hnone => (nomatch hnone)⟩
  | control =>
    have hsame : s.controlStep.bin = s.bin ∧ s.controlStep.binUs = s.binUs := by
      unfold Telemetry.controlStep
      cases s.control <;> exact ⟨rfl, rfl⟩
    exact ⟨_, rfl, h.control, hkept.append _ hsame.1 hsame.2, fun _ _ hnone => (nomatch hnone)⟩
  | sample free st =>
    have hmore : (c.calls + 1 : Int) ≤ c.begunCalls + 1 := by
      rw [Chart.begunCalls]
      omega
    obtain ⟨s', hs', hbin, hbinUs, h'⟩ := h.sample free st (hmore.trans hroom)
    exact ⟨s', hs', h', hkept.append _ hbin hbinUs, fun _ _ hnone => (nomatch hnone)⟩
  | timer =>
    obtain ⟨s', hs', hbin, hbinUs, h'⟩ := h.timerStep (le_trans (by omega) hroom)
    exact ⟨s', hs', h', hkept.append _ hbin hbinUs, fun _ _ hnone => (nomatch hnone)⟩
  | sysDyn =>
    unfold Telemetry.step
    cases hpc : s.httpd with
    | idle =>
      exact ⟨_, rfl, h.serve _ _ _, hkept.append _ rfl rfl, fun _ _ hnone => (nomatch hnone)⟩
    | _ => exact ⟨s, rfl, h, hkept.append _ rfl rfl, fun _ _ hnone => (nomatch hnone)⟩
  | hist now => exact h.asks hkept now
  | httpd =>
    obtain ⟨s', hs', h', hkept', hreply⟩ := h.httpd hkept hrun
    exact ⟨s', hs', h', hkept', fun now bytes hsent => ⟨now, by omega, hreply now bytes hsent⟩⟩

end web

end KartFirmware

import KartFirmware.Collection

/-!
# Calibration against arming, step by step

The hooks of the Bluetooth task and the calibration and pairing commands of the web
task, one access to the shared state at a time, interleaved with whole ticks of the
control loop.  What only the web task writes (the center, the half-amplitudes, the
calibrated flag) is read together with the step that uses it.

A hook or a command that nothing interrupts does what its function in the model of
`input.cpp` does in one go (`onData_alone`, `onConn_alone`, `command_alone`).

The guarded commands look at the published status once, before they do anything, and
`calFinish` relies on the collection it has found.  So a kart that does not arm between
this look and the last access of the command never collects while it is armed, never
writes the calibration while it is armed, and only drives again after a new arming
(`calibration_excludes_arming`); a tick that arms in between lets a collection, and a
write of the calibration, meet an armed kart (`late_arming_not_excluded`).
-/

set_option linter.unusedSectionVars false

namespace KartFirmware

/-! ### The Bluetooth task -/

inductive PadField where
  | x
  | y
  | estop
  | start
  | drive
  | buttons
  | zl
  | zr
  | rx2
  | ry2

/-- The store of one field of a report. -/
def PadField.copy {F : Type} (rep raw : HidReport F) : PadField → HidReport F
  | .x => { raw with x := rep.x }
  | .y => { raw with y := rep.y }
  | .estop => { raw with estop := rep.estop }
  | .start => { raw with start := rep.start }
  | .drive => { raw with drive := rep.drive }
  | .buttons => { raw with buttons := rep.buttons }
  | .zl => { raw with zl := rep.zl }
  | .zr => { raw with zr := rep.zr }
  | .rx2 => { raw with rx2 := rep.rx2 }
  | .ry2 => { raw with ry2 := rep.ry2 }

/-- One access of the hooks; a look at the state may call for more. -/
inductive BtOp (F : Type) where
  | lastReport (us : Int)
  | copy (field : PadField) (rep : HidReport F)
  | collecting (x y : F)
  | lowerX (v : F)
  | raiseX (v : F)
  | lowerY (v : F)
  | raiseY (v : F)
  | minX (v : F)
  | maxX (v : F)
  | minY (v : F)
  | maxY (v : F)
  | lost
  | cancel
  | connected (b : Bool)
  | pairing (b : Bool)

variable {F : Type} [CFloat F]

def BtOp.exec (s : Input F) : BtOp F → Input F × List (BtOp F)
  | .lastReport us => ({ s with lastReportUs := us }, [])
  | .copy field rep => ({ s with raw := field.copy rep s.raw }, [])
  | .collecting x y =>
    (s, if s.calState = 1 then [.lowerX x, .raiseX x, .lowerY y, .raiseY y] else [])
  | .lowerX v => (s, if v < s.minX then [.minX v] else [])
  | .raiseX v => (s, if v > s.maxX then [.maxX v] else [])
  | .lowerY v => (s, if v < s.minY then [.minY v] else [])
  | .raiseY v => (s, if v > s.maxY then [.maxY v] else [])
  | .minX v => ({ s with minX := v }, [])
  | .maxX v => ({ s with maxX := v }, [])
  | .minY v => ({ s with minY := v }, [])
  | .maxY v => ({ s with maxY := v }, [])
  | .lost => (s, if s.calState = 1 then [.cancel] else [])
  | .cancel => ({ s with calState := 0 }, [])
  | .connected b => ({ s with connected := b }, [])
  | .pairing b => ({ s with pairing := b }, [])

/-- `inputbp_on_data`. -/
def onDataOps (now : Int) (rep : HidReport F) : List (BtOp F) :=
  [.lastReport now, .copy .x rep, .copy .y rep, .copy .estop rep, .copy .start rep,
    .copy .drive rep, .copy .buttons rep, .copy .zl rep, .copy .zr rep, .copy .rx2 rep,
    .copy .ry2 rep, .collecting rep.x rep.y]

/-- `inputbp_on_conn`. -/
def onConnOps (connected : Bool) : List (BtOp F) :=
  if connected then [.connected true, .pairing false]
  else
    [.lost, .connected false, .copy .x Input.noReport, .copy .y Input.noReport,
      .copy .rx2 Input.noReport, .copy .ry2 Input.noReport, .copy .zl Input.noReport,
      .copy .zr Input.noReport, .copy .estop Input.noReport, .copy .start Input.noReport,
      .copy .drive Input.noReport, .copy .buttons Input.noReport]

/-! ### The web task -/

inductive WebCmd where
  | calStart
  | calFinish
  | calCancel
  | startPairing
  | unpair

/-- The commands that `refusedArmed` guards. -/
inductive Guarded where
  | calStart
  | startPairing
  | unpair

/-- What a gamepad that still emits lets the command do. -/
inductive Fresh (F : Type) where
  | capture
  | accept (hx hy : F)

/-- One store of a command, one call of the NVS, or one access of a hook that it calls. -/
inductive WebOp (F : Type) where
  | connected (b : Bool)
  | pairing (b : Bool)
  | cx (v : F)
  | cy (v : F)
  | hx (v : F)
  | hy (v : F)
  | minX (v : F)
  | maxX (v : F)
  | minY (v : F)
  | maxY (v : F)
  | calState (v : Int)
  | calibrated (b : Bool)
  | nvsOpen
  | nvsSetBlob
  | nvsSetOk
  | nvsCommit
  | hook (op : BtOp F)

/-- Where the web task stands: before a look, before a load, or before a row of stores. -/
inductive WebPc (F : Type) where
  | idle
  | refusedArmed (cmd : Guarded)
  | collecting
  | cancel
  | minX
  | maxX (x₀ : F)
  | minY (x₀ x₁ : F)
  | maxY (x₀ x₁ y₀ : F)
  | close (hx hy : F)
  | padConnected (k : Fresh F)
  | padReport (k : Fresh F)
  | rawX
  | rawY (x : F)
  | ops (todo : List (WebOp F))

def WebOp.exec (s : Input F) (r : PadNvsResults) : WebOp F → Input F
  | .connected b => { s with connected := b }
  | .pairing b => { s with pairing := b }
  | .cx v => { s with cal := { s.cal with cx := v } }
  | .cy v => { s with cal := { s.cal with cy := v } }
  | .hx v => { s with cal := { s.cal with hx := v } }
  | .hy v => { s with cal := { s.cal with hy := v } }
  | .minX v => { s with minX := v }
  | .maxX v => { s with maxX := v }
  | .minY v => { s with minY := v }
  | .maxY v => { s with maxY := v }
  | .calState v => { s with calState := v }
  | .calibrated b => { s with cal := { s.cal with calibrated := b } }
  | .nvsOpen => s
  | .nvsSetBlob =>
    if r.setsBlob then
      { s with nvs := { s.nvs with cal := some (s.cal.cx, s.cal.cy, s.cal.hx, s.cal.hy) } }
    else s
  | .nvsSetOk =>
    if r.setsOk then
      { s with nvs := { s.nvs with ok := some (if s.cal.calibrated then 1 else 0) } }
    else s
  | .nvsCommit => s
  | .hook op => (op.exec s).1

def WebOp.isNvs : WebOp F → Bool
  | .nvsOpen => true
  | .nvsSetBlob => true
  | .nvsSetOk => true
  | .nvsCommit => true
  | _ => false

def WebOp.isHook : WebOp F → Bool
  | .hook _ => true
  | _ => false

/-- What is left to do: `calSave` returns if the namespace does not open, and a hook may call
for more. -/
def WebOp.next (s : Input F) (r : PadNvsResults) (todo : List (WebOp F)) : WebOp F → List (WebOp F)
  | .nvsOpen => if r.opens then todo else todo.dropWhile WebOp.isNvs
  | .hook op => (op.exec s).2.map .hook ++ todo
  | _ => todo

def calSaveOps : List (WebOp F) := [.nvsOpen, .nvsSetBlob, .nvsSetOk, .nvsCommit]

def calClearOps : List (WebOp F) := .calibrated false :: .calState 0 :: calSaveOps

def captureOps (x y : F) : List (WebOp F) :=
  [.cx x, .cy y, .maxX x, .minX x, .maxY y, .minY y, .calState 1]

def acceptOps (hx hy : F) : List (WebOp F) := .hx hx :: .hy hy :: .calibrated true :: calSaveOps

def WebCmd.enter : WebCmd → WebPc F
  | .calStart => .refusedArmed .calStart
  | .calFinish => .collecting
  | .calCancel => .cancel
  | .startPairing => .refusedArmed .startPairing
  | .unpair => .refusedArmed .unpair

/-- Where a guarded command goes on when it is not refused. -/
def Guarded.enter : Guarded → WebPc F
  | .calStart => .padConnected .capture
  | .startPairing => .ops (.pairing true :: calClearOps)
  | .unpair =>
    .ops (.connected false :: .pairing false :: (calClearOps ++ (onConnOps false).map .hook))

def Fresh.enter : Fresh F → WebPc F
  | .capture => .rawX
  | .accept hx hy => if hx > 0.2 ∧ hy > 0.2 then .ops (acceptOps hx hy) else .idle

/-- The next step of the web task, with the armed flag that a look at the status reads. -/
def WebPc.step (s : Input F) (armed : Bool) (now : Int) (r : PadNvsResults) :
    WebPc F → Input F × WebPc F
  | .idle => (s, .idle)
  | .refusedArmed cmd => (s, if armed then .idle else cmd.enter)
  | .collecting => (s, if s.calState = 1 then .minX else .idle)
  | .cancel => ({ s with calState := 0 }, .idle)
  | .minX => (s, .maxX s.minX)
  | .maxX x₀ => (s, .minY x₀ s.maxX)
  | .minY x₀ x₁ => (s, .maxY x₀ x₁ s.minY)
  | .maxY x₀ x₁ y₀ =>
    (s, .close (stdMax (s.cal.cx - x₀) (x₁ - s.cal.cx))
      (stdMax (s.cal.cy - y₀) (s.maxY - s.cal.cy)))
  | .close hx hy => ({ s with calState := 0 }, .padConnected (.accept hx hy))
  | .padConnected k => (s, if s.connected then .padReport k else .idle)
  | .padReport k =>
    (s, if now - s.lastReportUs < hw.PAD_HB_TIMEOUT_US then k.enter else .idle)
  | .rawX => (s, .rawY s.raw.x)
  | .rawY x => (s, .ops (captureOps x s.raw.y))
  | .ops [] => (s, .idle)
  | .ops (op :: todo) => (op.exec s r, .ops (op.next s r todo))

/-- A command stands past its look at the status (past the collection that `calFinish` has
found) and before the last access of its own.  The hook that `unpair` ends with is the same
as when the gamepad is lost. -/
def WebPc.Committed : WebPc F → Prop
  | .idle => False
  | .refusedArmed _ => False
  | .collecting => False
  | .cancel => False
  | .ops todo => todo.any (fun op => !op.isHook) = true
  | _ => True

/-- `calSave` runs or is about to, after the stores of `calClear` or of `calFinish`. -/
def WebPc.saves : WebPc F → Bool
  | .ops todo => todo.any WebOp.isNvs
  | _ => false

/-! ### A command alone -/

/-- What the command does in one go. -/
def WebCmd.apply (s : Input F) (armed : Bool) (now : Int) (r : PadNvsResults) :
    WebCmd → Input F
  | .calStart => s.calStart armed now
  | .calFinish => s.calFinish now r
  | .calCancel => s.calCancel
  | .startPairing => s.startPairing armed r
  | .unpair => s.unpair armed r

/-- A step of the web task that nothing interrupts. -/
def WebPc.turn (armed : Bool) (now : Int) (r : PadNvsResults) (p : Input F × WebPc F) :
    Input F × WebPc F :=
  p.2.step p.1 armed now r

theorem WebPc.turn_calSaveOps (input : Input F) (armed : Bool) (now : Int) (r : PadNvsResults) :
    (WebPc.turn armed now r)^[5] (input, .ops calSaveOps) = (input.calSave r, .idle) := by
  obtain ⟨opens, setsBlob, setsOk⟩ := r
  cases opens <;> cases setsBlob <;> cases setsOk <;> rfl

/-- `calClear`, with more to do behind it. -/
theorem WebPc.turn_calClearOps (input : Input F) (armed : Bool) (now : Int) (r : PadNvsResults)
    {todo : List (WebOp F)} (htodo : todo.dropWhile WebOp.isNvs = todo) :
    ∃ n, (WebPc.turn armed now r)^[n] (input, .ops (calClearOps ++ todo)) =
      (input.calClear r, .ops todo) := by
  obtain ⟨opens, setsBlob, setsOk⟩ := r
  cases opens with
  | true => exact ⟨6, by cases setsBlob <;> cases setsOk <;> rfl⟩
  | false =>
    refine ⟨3, ?_⟩
    have hskip : (WebOp.nvsSetBlob :: .nvsSetOk :: .nvsCommit :: todo).dropWhile WebOp.isNvs =
        todo := htodo
    exact congrArg (fun l => (_, WebPc.ops l)) hskip

/-- The hook of a lost gamepad, outside a collection. -/
theorem WebPc.turn_lost (input : Input F) (armed : Bool) (now : Int) (r : PadNvsResults)
    (hrest : input.calState ≠ 1) :
    (WebPc.turn armed now r)^[13] (input, .ops ((onConnOps false).map .hook)) =
      (input.onConn false, .idle) := by
  simp [WebPc.turn, WebPc.step, WebOp.exec, WebOp.next, BtOp.exec, PadField.copy, onConnOps,
    Input.onConn, Input.noReport, hrest]

theorem WebPc.turn_padConnected (input : Input F) (armed : Bool) (now : Int) (r : PadNvsResults)
    (k : Fresh F) :
    (WebPc.turn armed now r)^[2] (input, .padConnected k) =
      (input, if input.padDataFresh now then k.enter else .idle) := by
  by_cases hconnected : input.connected = true
  · simp [WebPc.turn, WebPc.step, Input.padDataFresh, hconnected]
  · simp [WebPc.turn, WebPc.step, Input.padDataFresh, hconnected]

theorem WebPc.turn_calStart (input : Input F) (armed : Bool) (now : Int) (r : PadNvsResults) :
    ∃ n, (WebPc.turn armed now r)^[n] (input, WebCmd.calStart.enter) =
      (input.calStart armed now, .idle) := by
  cases armed with
  | true => exact ⟨1, rfl⟩
  | false =>
    have hlook : WebPc.turn false now r (input, WebCmd.calStart.enter) =
        (input, .padConnected .capture) := rfl
    have hfresh := WebPc.turn_padConnected input false now r .capture
    cases hpad : input.padDataFresh now with
    | true =>
      have hcaptured : (WebPc.turn false now r)^[10] (input, .rawX) =
          ({ input with
              cal := { input.cal with cx := input.raw.x, cy := input.raw.y }
              minX := input.raw.x
              maxX := input.raw.x
              minY := input.raw.y
              maxY := input.raw.y
              calState := 1 }, .idle) := by
        simp [WebPc.turn, WebPc.step, captureOps, WebOp.exec, WebOp.next]
      rw [hpad, if_pos rfl] at hfresh
      refine ⟨10 + 2 + 1, ?_⟩
      rw [Function.iterate_succ_apply, hlook, Function.iterate_add_apply, hfresh,
        Input.calStart_accepted hpad]
      exact hcaptured
    | false =>
      rw [hpad] at hfresh
      refine ⟨2 + 1, ?_⟩
      rw [Function.iterate_succ_apply, hlook, hfresh]
      simp [Input.calStart, hpad]

theorem WebPc.turn_calFinish (input : Input F) (armed : Bool) (now : Int) (r : PadNvsResults) :
    ∃ n, (WebPc.turn armed now r)^[n] (input, WebCmd.calFinish.enter) =
      (input.calFinish now r, .idle) := by
  by_cases hcollects : input.calState = 1
  · have hentered : (WebPc.turn armed now r)^[6] (input, WebCmd.calFinish.enter) =
        ({ input with calState := 0 },
          .padConnected (.accept input.amplitudeX input.amplitudeY)) := by
      simp [WebPc.turn, WebPc.step, WebCmd.enter, hcollects, Input.amplitudeX, Input.amplitudeY]
    have hfresh := WebPc.turn_padConnected { input with calState := 0 } armed now r
      (.accept input.amplitudeX input.amplitudeY)
    rw [← hentered, ← Function.iterate_add_apply] at hfresh
    have hsame : ({ input with calState := 0 } : Input F).padDataFresh now =
      input.padDataFresh now := rfl
    rw [hsame] at hfresh
    by_cases haccepts : input.finishAccepts now = true
    · simp only [Input.finishAccepts, Bool.and_eq_true, decide_eq_true_eq] at haccepts
      obtain ⟨⟨hpad, hx⟩, hy⟩ := haccepts
      refine ⟨8 + (2 + 6), ?_⟩
      rw [Function.iterate_add_apply, hfresh, if_pos hpad, Fresh.enter, if_pos ⟨hx, hy⟩]
      rw [Input.calFinish, if_neg (not_not.mpr hcollects)]
      simp only [hsame, hpad]
      simp only [Bool.not_true, if_neg Bool.false_ne_true, if_pos (And.intro hx hy)]
      exact WebPc.turn_calSaveOps _ armed now r
    · refine ⟨2 + 6, hfresh.trans ?_⟩
      simp only [Input.finishAccepts, Bool.and_eq_true, decide_eq_true_eq] at haccepts
      rw [Input.calFinish, if_neg (not_not.mpr hcollects)]
      simp only [hsame]
      cases hpad : input.padDataFresh now with
      | false => rfl
      | true =>
        have hlow : ¬ (input.amplitudeX > 0.2 ∧ input.amplitudeY > 0.2) :=
          fun hamp => haccepts ⟨⟨hpad, hamp.1⟩, hamp.2⟩
        rw [if_pos rfl, Fresh.enter, if_neg hlow]
        simp only [Bool.not_true, if_neg Bool.false_ne_true, if_neg hlow]
  · refine ⟨1, ?_⟩
    simp [WebPc.turn, WebPc.step, WebCmd.enter, Input.calFinish, hcollects]

/-- **A command that nothing interrupts** does what it does in one go. -/
theorem WebPc.turn_cmd (cmd : WebCmd) (input : Input F) (armed : Bool) (now : Int)
    (r : PadNvsResults) :
    ∃ n, (WebPc.turn armed now r)^[n] (input, cmd.enter) =
      (cmd.apply input armed now r, .idle) := by
  cases cmd with
  | calStart => exact WebPc.turn_calStart input armed now r
  | calFinish => exact WebPc.turn_calFinish input armed now r
  | calCancel => exact ⟨1, rfl⟩
  | startPairing =>
    cases armed with
    | true => exact ⟨1, rfl⟩
    | false => exact ⟨9, WebPc.turn_calSaveOps _ false now r⟩
  | unpair =>
    cases armed with
    | true => exact ⟨1, rfl⟩
    | false =>
      have hhook : ((onConnOps false).map .hook : List (WebOp F)).dropWhile WebOp.isNvs =
          (onConnOps false).map .hook := rfl
      obtain ⟨n, hclear⟩ := WebPc.turn_calClearOps { input with connected := false, pairing := false }
        false now r hhook
      refine ⟨13 + (n + 3), ?_⟩
      have hentered : (WebPc.turn false now r)^[3] (input, WebCmd.unpair.enter) =
          ({ input with connected := false, pairing := false },
            .ops (calClearOps ++ (onConnOps false).map .hook)) := rfl
      rw [Function.iterate_add_apply, Function.iterate_add_apply, hentered, hclear]
      refine WebPc.turn_lost _ false now r ?_
      rw [Input.calClear_calState]
      decide

/-! ### The three tasks -/

structure CollectSystem (F : Type) where
  esp : EspController F
  input : Input F
  status : KartStatus F
  web : WebPc F
  bt : List (BtOp F)

/-- A tick of the control loop; a report or a connection event, when the Bluetooth task
has done with the last one; its next access; a command, when the web task is idle; its
next step. -/
inductive CollectAct (F : Type) where
  | tick (cfg : KartConfig F) (nowUs : Int)
  | report (now : Int) (rep : HidReport F)
  | conn (connected : Bool)
  | bt
  | call (cmd : WebCmd)
  | web (now : Int) (r : PadNvsResults)

namespace CollectSystem

variable [CSqrt F]

def espIn (s : CollectSystem F) (cfg : KartConfig F) (nowUs : Int) : EspIn F where
  input := s.input
  cfg := cfg
  nowUs := nowUs

def btStep (s : CollectSystem F) : CollectSystem F :=
  match s.bt with
  | [] => s
  | op :: todo => { s with input := (op.exec s.input).1, bt := (op.exec s.input).2 ++ todo }

def webStep (s : CollectSystem F) (now : Int) (r : PadNvsResults) : CollectSystem F :=
  let next := s.web.step s.input s.status.arming now r
  { s with input := next.1, web := next.2 }

def step (s : CollectSystem F) : CollectAct F → CollectSystem F
  | .tick cfg nowUs =>
    let r := s.esp.tickOnce (s.espIn cfg nowUs)
    { s with esp := r.1, status := r.2.status }
  | .report now rep => if s.bt.isEmpty then { s with bt := onDataOps now rep } else s
  | .conn connected => if s.bt.isEmpty then { s with bt := onConnOps connected } else s
  | .bt => s.btStep
  | .call cmd =>
    match s.web with
    | .idle => { s with web := cmd.enter }
    | _ => s
  | .web now r => s.webStep now r

def machine (cfg₀ : KartConfig F) (nvs : PadNvs F) (opens : Bool) :
    Mealy.Machine (CollectSystem F) (CollectAct F) Unit where
  init :=
    { esp := .new cfg₀, input := (Input.boot nvs).calLoad opens, status := .initial
      web := .idle, bt := [] }
  step s a := (s.step a, ())

/-! ### A hook or a command alone -/

section Alone

variable (s : CollectSystem F)

theorem onData_alone (hidle : s.bt = []) (now : Int) (rep : HidReport F) :
    btStep^[20] (s.step (.report now rep)) = { s with input := s.input.onData now rep } := by
  obtain ⟨esp, input, status, web, bt⟩ := s
  subst hidle
  by_cases hcollects : input.calState = 1
  · by_cases hlx : rep.x < input.minX <;> by_cases hrx : rep.x > input.maxX <;>
      by_cases hly : rep.y < input.minY <;> by_cases hry : rep.y > input.maxY <;>
      simp [step, onDataOps, btStep, BtOp.exec, PadField.copy, Input.onData, *]
  · simp [step, onDataOps, btStep, BtOp.exec, PadField.copy, Input.onData, *]

theorem onConn_alone (hidle : s.bt = []) (connected : Bool) :
    btStep^[13] (s.step (.conn connected)) = { s with input := s.input.onConn connected } := by
  obtain ⟨esp, input, status, web, bt⟩ := s
  subst hidle
  cases connected with
  | true => simp [step, onConnOps, btStep, BtOp.exec, Input.onConn]
  | false =>
    by_cases hcollects : input.calState = 1 <;>
      simp [step, onConnOps, btStep, BtOp.exec, PadField.copy, Input.onConn, Input.noReport,
        hcollects]

theorem webStep_iterate (now : Int) (r : PadNvsResults) (n : Nat) :
    (fun s => s.webStep now r)^[n] s =
      { s with
        input := ((WebPc.turn s.status.arming now r)^[n] (s.input, s.web)).1
        web := ((WebPc.turn s.status.arming now r)^[n] (s.input, s.web)).2 } := by
  induction n generalizing s with
  | zero => rfl
  | succ n ih =>
    rw [Function.iterate_succ_apply, ih]
    rfl

theorem command_alone (hidle : s.web = .idle) (cmd : WebCmd) (now : Int) (r : PadNvsResults) :
    ∃ n, (fun s => s.webStep now r)^[n] (s.step (.call cmd)) =
      { s with input := cmd.apply s.input s.status.arming now r } := by
  obtain ⟨n, hn⟩ := WebPc.turn_cmd cmd s.input s.status.arming now r
  obtain ⟨esp, input, status, web, bt⟩ := s
  subst hidle
  refine ⟨n, ?_⟩
  rw [webStep_iterate]
  exact congrArg (fun p : Input F × WebPc F => CollectSystem.mk esp p.1 status p.2 bt) hn

end Alone

/-! ### What should hold -/

/-- The step is a tick that arms the kart: nothing is in the way, the START press has been
held long enough, and the stick is centered. -/
def Arms (s : CollectSystem F) (a : CollectAct F) : Prop :=
  ∃ cfg nowUs, a = .tick cfg nowUs ∧ s.esp.ctrl.loop.armed = false ∧
    stopCause (s.espIn cfg nowUs).tickIn.inputs = .none ∧
    s.esp.ctrl.loop.pressHandled cfg (s.espIn cfg nowUs).tickIn.inputs = true ∧
    centered (s.espIn cfg nowUs).tickIn.inputs.pad = true

def Drives (s : CollectSystem F) (a : CollectAct F) : Prop :=
  ∃ cfg nowUs, a = .tick cfg nowUs ∧ (s.esp.tickOnce (s.espIn cfg nowUs)).2.out.dynBrake = false

/-- No collection and no write of the calibration meets an armed kart, and a tick during a
collection disarms, brakes and has seen no stick. -/
structure Exclusive (s : CollectSystem F) : Prop where
  tick : s.input.calState = 1 → ∀ cfg nowUs,
    (s.esp.tickOnce (s.espIn cfg nowUs)).2.status.arming = false ∧
      (s.esp.tickOnce (s.espIn cfg nowUs)).2.out.dynBrake = true ∧
      s.input.padInputs.x = 0 ∧ s.input.padInputs.y = 0
  collecting : s.input.calState = 1 → s.status.arming = false
  saving : s.web.saves = true → s.status.arming = false

/-- No tick arms the kart while a command is committed. -/
def Undisturbed (s : CollectSystem F) (a : CollectAct F) : Prop := s.web.Committed → ¬ Arms s a

instance (pc : WebPc F) : Decidable pc.Committed :=
  match pc with
  | .idle => inferInstanceAs (Decidable False)
  | .refusedArmed _ => inferInstanceAs (Decidable False)
  | .collecting => inferInstanceAs (Decidable False)
  | .cancel => inferInstanceAs (Decidable False)
  | .ops todo => inferInstanceAs (Decidable (todo.any _ = true))
  | .minX | .maxX _ | .minY _ _ | .maxY _ _ _ | .close _ _ | .padConnected _ | .padReport _
  | .rawX | .rawY _ => isTrue trivial

instance (s : CollectSystem F) (a : CollectAct F) : Decidable (Arms s a) :=
  match a with
  | .tick cfg nowUs =>
    decidable_of_iff
      (s.esp.ctrl.loop.armed = false ∧ stopCause (s.espIn cfg nowUs).tickIn.inputs = .none ∧
        s.esp.ctrl.loop.pressHandled cfg (s.espIn cfg nowUs).tickIn.inputs = true ∧
        centered (s.espIn cfg nowUs).tickIn.inputs.pad = true)
      ⟨fun h => ⟨cfg, nowUs, rfl, h⟩, fun ⟨_, _, hsame, h⟩ => by cases hsame; exact h⟩
  | .report _ _ => isFalse fun ⟨_, _, hsame, _⟩ => by cases hsame
  | .conn _ => isFalse fun ⟨_, _, hsame, _⟩ => by cases hsame
  | .bt => isFalse fun ⟨_, _, hsame, _⟩ => by cases hsame
  | .call _ => isFalse fun ⟨_, _, hsame, _⟩ => by cases hsame
  | .web _ _ => isFalse fun ⟨_, _, hsame, _⟩ => by cases hsame

instance (s : CollectSystem F) (a : CollectAct F) : Decidable (Undisturbed s a) :=
  inferInstanceAs (Decidable (_ → _))

/-! ### One step -/

structure CollectInv (s : CollectSystem F) : Prop where
  published : s.status.arming = s.esp.ctrl.loop.armed
  collecting : s.input.calState = 1 → s.status.arming = false
  committed : s.web.Committed → s.status.arming = false

theorem committed_of_saves {pc : WebPc F} (h : pc.saves = true) : pc.Committed := by
  cases pc with
  | ops todo =>
    obtain ⟨op, hop, hnvs⟩ := List.any_eq_true.mp h
    refine List.any_eq_true.mpr ⟨op, hop, ?_⟩
    cases op with
    | hook op => exact Bool.noConfusion hnvs
    | _ => rfl
  | _ => simp [WebPc.saves] at h

/-- The hooks start no collection. -/
theorem BtOp.exec_calState {input : Input F} {op : BtOp F}
    (h : (op.exec input).1.calState = 1) : input.calState = 1 := by
  cases op with
  | cancel =>
    have hzero : (0 : Int) = 1 := h
    exact absurd hzero (by decide)
  | _ => exact h

/-- A step of the web task that begins uncommitted starts no collection, and it commits to
nothing unless it has seen an unarmed kart or a collection. -/
theorem WebPc.step_uncommitted {pc : WebPc F} (h : ¬ pc.Committed) (input : Input F)
    (armed : Bool) (now : Int) (r : PadNvsResults) :
    ((pc.step input armed now r).1.calState = 1 → input.calState = 1) ∧
      ((pc.step input armed now r).2.Committed → armed = false ∨ input.calState = 1) := by
  cases pc with
  | idle => exact ⟨id, False.elim⟩
  | refusedArmed cmd =>
    refine ⟨id, fun hnext => Or.inl ?_⟩
    cases armed with
    | true => exact hnext.elim
    | false => rfl
  | collecting =>
    refine ⟨id, fun hnext => ?_⟩
    by_cases hcollects : input.calState = 1
    · exact Or.inr hcollects
    · rw [WebPc.step, if_neg hcollects] at hnext
      exact hnext.elim
  | cancel =>
    refine ⟨fun hafter => ?_, False.elim⟩
    have hzero : (0 : Int) = 1 := hafter
    exact absurd hzero (by decide)
  | ops todo =>
    cases todo with
    | nil => exact ⟨id, False.elim⟩
    | cons op todo =>
      -- what is left is the hook that `unpair` ends with
      rw [WebPc.Committed, List.any_cons, Bool.or_eq_true, not_or] at h
      obtain ⟨hop, hrest⟩ := h
      cases op with
      | hook op =>
        refine ⟨BtOp.exec_calState, fun hnext => absurd ?_ hrest⟩
        have hmore : ((op.exec input).2.map WebOp.hook).any (fun op => !op.isHook) = false := by
          simp [WebOp.isHook]
        rw [WebPc.step, WebPc.Committed, WebOp.next, List.any_append, hmore, Bool.false_or] at hnext
        exact hnext
      | _ => exact absurd rfl hop
  | _ => exact absurd trivial h

variable {s : CollectSystem F}

/-- After a step of the web task the kart is as it was, and disarmed wherever it has to
be. -/
theorem CollectInv.webStep (h : CollectInv s) (now : Int) (r : PadNvsResults) :
    CollectInv (s.webStep now r) := by
  by_cases hcommitted : s.web.Committed
  · have hunarmed := h.committed hcommitted
    exact ⟨h.published, fun _ => hunarmed, fun _ => hunarmed⟩
  · obtain ⟨hbefore, hnext⟩ := WebPc.step_uncommitted hcommitted s.input s.status.arming now r
    refine ⟨h.published, fun hcollects => h.collecting (hbefore hcollects), fun hafter => ?_⟩
    rcases hnext hafter with hunarmed | hcollects
    · exact hunarmed
    · exact h.collecting hcollects

theorem CollectInv.btStep (h : CollectInv s) : CollectInv s.btStep := by
  unfold CollectSystem.btStep
  cases s.bt with
  | nil => exact h
  | cons op todo =>
    exact ⟨h.published, fun hcollects => h.collecting (BtOp.exec_calState hcollects),
      h.committed⟩

/-- A tick that finds the kart unarmed and goes on armed has taken the arming branch. -/
theorem arms_tick {cfg : KartConfig F} {nowUs : Int} (hbefore : s.esp.ctrl.loop.armed = false)
    (harm : (s.esp.ctrl.loop.arm cfg (s.espIn cfg nowUs).tickIn.inputs).armed = true) :
    Arms s (.tick cfg nowUs) := by
  rw [arm_armed, hbefore, Bool.and_eq_true, decide_eq_true_eq] at harm
  obtain ⟨hfree, hpress⟩ := harm
  split_ifs at hpress with hhandled
  rw [Bool.and_eq_true] at hpress
  exact ⟨cfg, nowUs, rfl, hbefore, hfree, hhandled, hpress.2⟩

/-- Only a tick that arms makes an unarmed kart armed. -/
theorem arms_of_step (a : CollectAct F) (hbefore : s.esp.ctrl.loop.armed = false)
    (hafter : (s.step a).esp.ctrl.loop.armed = true) : Arms s a := by
  have hsame : ∀ e, e = s.esp → e.ctrl.loop.armed = true → Arms s a := by
    rintro e rfl harmed
    rw [hbefore] at harmed
    cases harmed
  cases a with
  | tick cfg nowUs =>
    refine arms_tick hbefore ?_
    by_contra harm
    rw [Bool.not_eq_true] at harm
    have hpublished := (s.esp.tickOnce_unarmed (i := s.espIn cfg nowUs) harm).1
    exact absurd (hpublished.symm.trans hafter) (by simp)
  | report now rep =>
    refine hsame _ ?_ hafter
    simp only [CollectSystem.step]
    split_ifs <;> rfl
  | conn connected =>
    refine hsame _ ?_ hafter
    simp only [CollectSystem.step]
    split_ifs <;> rfl
  | bt =>
    refine hsame _ ?_ hafter
    simp only [CollectSystem.step, CollectSystem.btStep]
    cases s.bt <;> rfl
  | call cmd =>
    refine hsame _ ?_ hafter
    simp only [CollectSystem.step]
    cases s.web <;> rfl
  | web now r => exact hsame _ rfl hafter

theorem CollectInv.step (h : CollectInv s) {a : CollectAct F} (ha : Undisturbed s a) :
    CollectInv (s.step a) := by
  cases a with
  | tick cfg nowUs =>
    refine ⟨rfl, fun hcollects => ?_, fun hcommitted => ?_⟩
    · exact (EspController.tickOnce_collecting s.esp (i := s.espIn cfg nowUs) hcollects).1
    · have hbefore := h.published.symm.trans (h.committed hcommitted)
      by_contra harmed
      rw [Bool.not_eq_false] at harmed
      exact ha hcommitted (arms_of_step (.tick cfg nowUs) hbefore harmed)
  | report now rep =>
    simp only [CollectSystem.step]
    split_ifs
    · exact ⟨h.published, h.collecting, h.committed⟩
    · exact h
  | conn connected =>
    simp only [CollectSystem.step]
    split_ifs
    · exact ⟨h.published, h.collecting, h.committed⟩
    · exact h
  | bt => exact h.btStep
  | call cmd =>
    simp only [CollectSystem.step]
    cases hpc : s.web with
    | idle =>
      refine ⟨h.published, h.collecting, fun hcommitted => ?_⟩
      cases cmd <;> exact hcommitted.elim
    | _ => exact h
  | web now r => exact h.webStep now r

theorem CollectInv.exclusive (h : CollectInv s) : Exclusive s :=
  ⟨fun hcollects _ _ => EspController.tickOnce_collecting s.esp hcollects, h.collecting,
    fun hsaves => h.committed (committed_of_saves hsaves)⟩

/-! ### A new arming -/

theorem arms_or_armed_of_drives {a : CollectAct F} (h : Drives s a) :
    Arms s a ∨ s.esp.ctrl.loop.armed = true := by
  obtain ⟨cfg, nowUs, rfl, hdrives⟩ := h
  cases hbefore : s.esp.ctrl.loop.armed with
  | true => exact Or.inr rfl
  | false =>
    refine Or.inl (arms_tick hbefore ?_)
    by_contra harm
    rw [Bool.not_eq_true] at harm
    have hbrake := (s.esp.tickOnce_unarmed (i := s.espIn cfg nowUs) harm).2
    exact absurd (hbrake.symm.trans hdrives) (by simp)

/-! ### Runs -/

section Runs

variable (cfg₀ : KartConfig F) (nvs : PadNvs F) (opens : Bool) (w : Nat → CollectAct F)

def runAt (n : Nat) : CollectSystem F := (machine cfg₀ nvs opens).stateAt w n

theorem CollectInv.start : CollectInv (runAt cfg₀ nvs opens w 0) := by
  have hrest : (((Input.boot nvs).calLoad opens).calState : Int) = 0 := by
    unfold Input.calLoad
    split_ifs <;> rfl
  exact ⟨rfl, fun hcollects => absurd (hrest.symm.trans hcollects) (by decide), False.elim⟩

variable {cfg₀ nvs opens w}

theorem collectInv_runAt {n : Nat}
    (hw : ∀ k < n, Undisturbed (runAt cfg₀ nvs opens w k) (w k)) :
    CollectInv (runAt cfg₀ nvs opens w n) := by
  induction n with
  | zero => exact .start cfg₀ nvs opens w
  | succ n ih =>
    have hbefore := ih fun k hk => hw k (Nat.lt_succ_of_lt hk)
    exact hbefore.step (hw n (Nat.lt_succ_self n))

/-- An unarmed kart that is armed later has been armed by a tick in between. -/
theorem exists_arms {m n : Nat} (hmn : m ≤ n)
    (hm : (runAt cfg₀ nvs opens w m).esp.ctrl.loop.armed = false)
    (hn : (runAt cfg₀ nvs opens w n).esp.ctrl.loop.armed = true) :
    ∃ k, m ≤ k ∧ k < n ∧ Arms (runAt cfg₀ nvs opens w k) (w k) := by
  induction n, hmn using Nat.le_induction with
  | base => exact absurd (hm.symm.trans hn) (by simp)
  | succ n hle ih =>
    cases hbefore : (runAt cfg₀ nvs opens w n).esp.ctrl.loop.armed with
    | false => exact ⟨n, hle, Nat.lt_succ_self n, arms_of_step (w n) hbefore hn⟩
    | true =>
      obtain ⟨k, hmk, hkn, harms⟩ := ih hbefore
      exact ⟨k, hmk, Nat.lt_succ_of_lt hkn, harms⟩

/-- **Calibration and pairing exclude arming** in every run in which no tick arms the kart
while a command is committed; and a kart that drives after a collection has been armed
anew. -/
theorem calibration_excludes_arming (n : Nat)
    (hw : ∀ k < n, Undisturbed (runAt cfg₀ nvs opens w k) (w k)) :
    Exclusive (runAt cfg₀ nvs opens w n) ∧
      ∀ m ≤ n, (runAt cfg₀ nvs opens w m).input.calState = 1 →
        Drives (runAt cfg₀ nvs opens w n) (w n) →
          ∃ k, m ≤ k ∧ k ≤ n ∧ Arms (runAt cfg₀ nvs opens w k) (w k) := by
  refine ⟨(collectInv_runAt hw).exclusive, fun m hmn hcollects hdrives => ?_⟩
  have hinv := collectInv_runAt fun k hk => hw k (Nat.lt_of_lt_of_le hk hmn)
  have hunarmed : (runAt cfg₀ nvs opens w m).esp.ctrl.loop.armed = false :=
    hinv.published.symm.trans (hinv.collecting hcollects)
  rcases arms_or_armed_of_drives hdrives with harms | harmed
  · exact ⟨n, hmn, le_refl n, harms⟩
  · obtain ⟨k, hmk, hkn, harms⟩ := exists_arms hmn hunarmed harmed
    exact ⟨k, hmk, hkn.le, harms⟩

end Runs

/-! ### On the bench -/

def answers : PadNvsResults := ⟨true, true, true⟩

def storedCal : PadNvs Float32 where
  cal := some (0, 0, 1, 1)
  ok := some 1

def startPressed : HidReport Float32 := { Input.noReport with start := true }

def stickForward : HidReport Float32 :=
  { Input.noReport with start := true, drive := true, y := 1 }

def reported (now : Int) (rep : HidReport Float32) : List (CollectAct Float32) :=
  .report now rep :: List.replicate 12 .bt

/-- A collection is started and cancelled, START is held until the kart arms, and the kart
drives. -/
def rearmed : List (CollectAct Float32) :=
  [.conn true, .bt, .bt] ++ reported 1 Input.noReport ++
    .call .calStart :: List.replicate 13 (.web 1 answers) ++
    [.tick benchCfg 1, .call .calCancel, .web 1 answers] ++ reported 2 startPressed ++
    [.tick benchCfg 2, .tick benchCfg 300003] ++ reported 300003 stickForward

def rearmedRun (n : Nat) : CollectAct Float32 := rearmed.getD n (.tick benchCfg 300004)

theorem calibration_excludes_arming_bench :
    Exclusive (runAt benchCfg storedCal true rearmedRun 61) ∧
      ∀ m ≤ 61, (runAt benchCfg storedCal true rearmedRun m).input.calState = 1 →
        Drives (runAt benchCfg storedCal true rearmedRun 61) (rearmedRun 61) →
          ∃ k, m ≤ k ∧ k ≤ 61 ∧
            Arms (runAt benchCfg storedCal true rearmedRun k) (rearmedRun k) :=
  calibration_excludes_arming 61 (by decide +kernel)

/-- START is held; a command is called, looks at the status, and the next tick arms. -/
def lateArming (cmd : WebCmd) : List (CollectAct Float32) :=
  [.conn true, .bt, .bt] ++ reported 1 startPressed ++
    [.tick benchCfg 1, .call cmd, .web 300001 answers, .tick benchCfg 300001]

def lateRun (cmd : WebCmd) (n : Nat) : CollectAct Float32 :=
  (lateArming cmd).getD n (.web 300001 answers)

/-- `calStart` then collects while the status says armed, and `startPairing` overwrites the
stored flag. -/
theorem late_arming_not_excluded :
    ((runAt benchCfg storedCal true (lateRun .calStart) 31).input.calState = 1 ∧
        (runAt benchCfg storedCal true (lateRun .calStart) 31).status.arming = true ∧
        ¬ Exclusive (runAt benchCfg storedCal true (lateRun .calStart) 31)) ∧
      (∀ n < 27, 20 ≤ n →
        (runAt benchCfg storedCal true (lateRun .startPairing) n).web.saves = true ∧
        (runAt benchCfg storedCal true (lateRun .startPairing) n).status.arming = true) ∧
      (runAt benchCfg storedCal true (lateRun .startPairing) 25).input.nvs.ok = some 1 ∧
      (runAt benchCfg storedCal true (lateRun .startPairing) 26).input.nvs.ok = some 0 ∧
      ¬ Exclusive (runAt benchCfg storedCal true (lateRun .startPairing) 25) := by
  have hcollects : (runAt benchCfg storedCal true (lateRun .calStart) 31).input.calState = 1 ∧
      (runAt benchCfg storedCal true (lateRun .calStart) 31).status.arming = true := by
    decide +kernel
  have hsaves : ∀ n < 27, 20 ≤ n →
      (runAt benchCfg storedCal true (lateRun .startPairing) n).web.saves = true ∧
      (runAt benchCfg storedCal true (lateRun .startPairing) n).status.arming = true := by
    decide +kernel
  refine ⟨⟨hcollects.1, hcollects.2, fun h => ?_⟩, hsaves, by decide +kernel, by decide +kernel,
    fun h => ?_⟩
  · exact absurd ((h.collecting hcollects.1).symm.trans hcollects.2) (by simp)
  · obtain ⟨hsaving, harmed⟩ := hsaves 25 (by decide) (by decide)
    exact absurd ((h.saving hsaving).symm.trans harmed) (by simp)

end CollectSystem

end KartFirmware

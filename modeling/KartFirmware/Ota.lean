import KartFirmware.Arming
import KartFirmware.Controller

/-!
# The update over the air

`otaPost` of `webserver.cpp`, interleaved with ticks of the control loop.  The
handler stands before a call or inside one: an `esp_ota_*` call is issued in one
step and answered in a later one, and any number of ticks may fall in between.
What the calls answer is arbitrary; a receive gives at most what was asked for.

The handler looks at the published status before it begins and after each
received chunk, and nowhere else.  So an upload stops for good when the kart arms,
provided that the kart does not arm after the last look before a write, the end, the
switch of the boot partition or the restart, nor arms and disarms between two
looks (`ota.armed_upload_stops`).  Each step excluded by this can go wrong
(`ota.unseen_breaks`).
-/

namespace KartFirmware

namespace ota

/-! ### The handler -/

def BUF : Nat := 4096

/-- An `esp_err_t` other than `ESP_OK`. -/
inductive EspErr where
  | otaValidateFailed
  | other (name : String)
deriving DecidableEq

def EspErr.name : EspErr → String
  | .otaValidateFailed => "ESP_ERR_OTA_VALIDATE_FAILED"
  | .other name => name

inductive Recv where
  | timeout
  | error
  | bytes (n : Nat)
deriving DecidableEq

/-- What the request and the calls answer to one step. -/
structure Answers where
  contentLen : Nat
  slotSize : Option Nat
  err : Option EspErr
  malloc : Bool
  recv : Recv

/-- Where the handler stands.  `in…` is inside a call that has been issued; `left`
is what is still to be received, `n` the size of the chunk in the buffer. -/
inductive Pc where
  | idle
  | slot (len : Nat)
  | begin_ (len : Nat)
  | inBegin (len : Nat)
  | alloc (len : Nat)
  | recv (left : Nat)
  | look (n left : Nat)
  | write (n left : Nat)
  | inWrite (n left : Nat)
  | end_
  | inEnd
  | setBoot
  | inSetBoot
  | reply
  | delay
  | restart
  | restarted
deriving DecidableEq

inductive Action where
  | nothing
  | begin_
  | write (n : Nat)
  | end_
  | setBoot
  | sendOk (text : String)
  | fail (abort : Bool) (status why : String)
  | restart
deriving DecidableEq

def Action.isFlash : Action → Bool
  | .write _ => true
  | .end_ => true
  | .setBoot => true
  | _ => false

def Pc.loop (left : Nat) : Pc := if left = 0 then .end_ else .recv left

/-- One step of `otaPost`, with the armed flag a look would read. -/
def otaPost (armed : Bool) (a : Answers) : Pc → Pc × Action
  | .idle =>
    if armed then (.idle, .fail false "409 Conflict" "Kart armed: disarm before updating.")
    else (.slot a.contentLen, .nothing)
  | .slot len =>
    match a.slotSize with
    | none => (.idle, .fail false "500 Internal Server Error" "No OTA slot.")
    | some size =>
      if len = 0 ∨ len > size then
        (.idle, .fail false "413 Content Too Large"
          "Image size missing or larger than the OTA slot.")
      else (.begin_ len, .nothing)
  | .begin_ len => (.inBegin len, .begin_)
  | .inBegin len =>
    match a.err with
    | some e => (.idle, .fail false "500 Internal Server Error" e.name)
    | none => (.alloc len, .nothing)
  | .alloc len =>
    if a.malloc then (.loop len, .nothing)
    else (.idle, .fail true "500 Internal Server Error" "Out of memory.")
  | .recv left =>
    match a.recv with
    | .timeout => (.recv left, .nothing)
    | .error => (.idle, .fail true "500 Internal Server Error" "Upload interrupted.")
    | .bytes n =>
      let n := min n (min left BUF)
      if n = 0 then (.idle, .fail true "500 Internal Server Error" "Upload interrupted.")
      else (.look n left, .nothing)
  | .look n left =>
    if armed then
      (.idle, .fail true "500 Internal Server Error" "Kart armed during the upload: aborted.")
    else (.write n left, .nothing)
  | .write n left => (.inWrite n left, .write n)
  | .inWrite n left =>
    match a.err with
    | some e => (.idle, .fail true "500 Internal Server Error" e.name)
    | none => (.loop (left - n), .nothing)
  | .end_ => (.inEnd, .end_)
  | .inEnd =>
    match a.err with
    | some .otaValidateFailed => (.idle, .fail false "400 Bad Request" "Invalid image.")
    | some e => (.idle, .fail false "400 Bad Request" e.name)
    | none => (.setBoot, .nothing)
  | .setBoot => (.inSetBoot, .setBoot)
  | .inSetBoot =>
    match a.err with
    | some e => (.idle, .fail false "500 Internal Server Error" e.name)
    | none => (.reply, .nothing)
  | .reply => (.delay, .sendOk "OK, rebooting into the new firmware.")
  | .delay => (.restart, .nothing)
  | .restart => (.restarted, .restart)
  | .restarted => (.restarted, .nothing)

/-! ### The handler and the control loop -/

/-- The image the next boot runs. -/
inductive Image where
  | running
  | uploaded
deriving DecidableEq

structure System (F : Type) where
  esp : EspController F
  status : KartStatus F
  pc : Pc
  boot : Image

inductive Event (F : Type) where
  | tick (i : EspIn F)
  | handler (a : Answers)

variable {F : Type} [CFloat F] [CSqrt F]

namespace System

/-- The handler's step; `esp_ota_set_boot_partition` has switched when it answers
`ESP_OK`. -/
def handle (s : System F) (a : Answers) : System F × Action :=
  let r := otaPost s.status.arming a s.pc
  ({ s with pc := r.1, boot := if r.1 = .reply then .uploaded else s.boot }, r.2)

/-- Nothing runs any more after `esp_restart`. -/
def step (s : System F) : Event F → System F × Action
  | .tick i =>
    if s.pc = .restarted then (s, .nothing)
    else
      let r := s.esp.tickOnce i
      ({ s with esp := r.1, status := r.2.status }, .nothing)
  | .handler a => s.handle a

def machine (cfg₀ : KartConfig F) : Mealy.Machine (System F) (Event F) Action where
  init := { esp := .new cfg₀, status := .initial, pc := .idle, boot := .running }
  step := step

end System

/-! ### Where the handler looks -/

/-- Whether the handler looks at the status again before it writes, ends, switches
the boot partition or restarts. -/
inductive Phase where
  | idle
  | watched
  | committed
deriving DecidableEq

def Pc.phase : Pc → Phase
  | .idle => .idle
  | .slot _ => .watched
  | .begin_ len => if len = 0 then .committed else .watched
  | .inBegin len => if len = 0 then .committed else .watched
  | .alloc len => if len = 0 then .committed else .watched
  | .recv _ => .watched
  | .look _ _ => .watched
  | .write _ _ => .committed
  | .inWrite n left => if left - n = 0 then .committed else .watched
  | .end_ => .committed
  | .inEnd => .committed
  | .setBoot => .committed
  | .inSetBoot => .committed
  | .reply => .committed
  | .delay => .committed
  | .restart => .committed
  | .restarted => .committed

/-- The control loop arms or disarms the kart where the handler does not see it: it
arms in a committed phase, or disarms before the handler has looked. -/
def System.Unseen (s : System F) : Event F → Prop
  | .handler _ => False
  | .tick i =>
    (s.pc.phase = .committed ∧ (s.step (.tick i)).1.status.arming = true) ∨
      (s.pc.phase = .watched ∧ s.status.arming = true ∧
        (s.step (.tick i)).1.status.arming = false)

instance (s : System F) (e : Event F) : Decidable (s.Unseen e) :=
  match e with
  | .handler _ => inferInstanceAs (Decidable False)
  | .tick _ => inferInstanceAs (Decidable ((_ ∧ _) ∨ (_ ∧ _ ∧ _)))

theorem phase_loop {left : Nat} (h : left ≠ 0) : (Pc.loop left).phase = .watched := by
  rw [Pc.loop, if_neg h]
  rfl

/-- A watched handler that a look would show an armed kart stays watched or fails,
and issues no flash operation. -/
theorem otaPost_watched (a : Answers) {pc : Pc} (h : pc.phase = .watched) :
    ((otaPost true a pc).1.phase = .watched ∨
        (otaPost true a pc).1 = .idle ∧
          ∃ abort status why, (otaPost true a pc).2 = .fail abort status why) ∧
      (otaPost true a pc).2.isFlash = false := by
  cases pc with
  | slot len =>
    simp only [otaPost]
    cases a.slotSize with
    | none => exact ⟨Or.inr ⟨rfl, _, _, _, rfl⟩, rfl⟩
    | some size =>
      simp only
      split_ifs with hsize
      · exact ⟨Or.inr ⟨rfl, _, _, _, rfl⟩, rfl⟩
      · exact ⟨Or.inl (if_neg fun hlen => hsize (Or.inl hlen)), rfl⟩
  | begin_ len => exact ⟨Or.inl h, rfl⟩
  | inBegin len =>
    simp only [otaPost]
    cases a.err with
    | some e => exact ⟨Or.inr ⟨rfl, _, _, _, rfl⟩, rfl⟩
    | none => exact ⟨Or.inl h, rfl⟩
  | alloc len =>
    have hlen : len ≠ 0 := by
      rintro rfl
      exact Phase.noConfusion h
    simp only [otaPost]
    split_ifs
    · exact ⟨Or.inl (phase_loop hlen), rfl⟩
    · exact ⟨Or.inr ⟨rfl, _, _, _, rfl⟩, rfl⟩
  | recv left =>
    simp only [otaPost]
    cases a.recv with
    | timeout => exact ⟨Or.inl rfl, rfl⟩
    | error => exact ⟨Or.inr ⟨rfl, _, _, _, rfl⟩, rfl⟩
    | bytes n =>
      simp only
      split_ifs
      · exact ⟨Or.inr ⟨rfl, _, _, _, rfl⟩, rfl⟩
      · exact ⟨Or.inl rfl, rfl⟩
  | look n left => exact ⟨Or.inr ⟨rfl, _, _, _, rfl⟩, rfl⟩
  | inWrite n left =>
    have hleft : left - n ≠ 0 := by
      intro hzero
      rw [Pc.phase, if_pos hzero] at h
      exact Phase.noConfusion h
    simp only [otaPost]
    cases a.err with
    | some e => exact ⟨Or.inr ⟨rfl, _, _, _, rfl⟩, rfl⟩
    | none => exact ⟨Or.inl (phase_loop hleft), rfl⟩
  | _ => exact Phase.noConfusion h

/-! ### Runs -/

section Runs

variable (cfg₀ : KartConfig F) (w : Nat → Event F)

def sysAt (n : Nat) : System F := (System.machine cfg₀).stateAt w n

def actionAt (n : Nat) : Action := (System.machine cfg₀).outAt w n

def Armed (n : Nat) : Prop := (sysAt cfg₀ w n).status.arming = true

/-- The first look, in step `c`, let an upload begin that is still under way before
step `n`. -/
structure Upload (c n : Nat) : Prop where
  idle : (sysAt cfg₀ w c).pc = .idle
  lt : c < n
  busy : ∀ m ≤ n, c < m → (sysAt cfg₀ w m).pc ≠ .idle

/-- The kart was armed at some point between the first look and step `n`. -/
def ArmedDuring (c n : Nat) : Prop := ∃ m ≤ n, c < m ∧ Armed cfg₀ w m

/-- What step `n` owes the driver, in the upload that step `c` let begin: once the
kart was armed, no flash operation, no switch of the boot image and no other end
than a failure; and no restart of an armed kart. -/
structure ArmedStops (c n : Nat) : Prop where
  flash : ArmedDuring cfg₀ w c n → (actionAt cfg₀ w n).isFlash = false
  restart : Armed cfg₀ w n → actionAt cfg₀ w n ≠ .restart
  boot : ArmedDuring cfg₀ w c n → (sysAt cfg₀ w (n + 1)).boot = .running
  aborts : ArmedDuring cfg₀ w c n → (sysAt cfg₀ w (n + 1)).pc = .idle →
    ∃ abort status why, actionAt cfg₀ w n = .fail abort status why

variable {cfg₀ : KartConfig F} {w : Nat → Event F}

theorem sysAt_succ (n : Nat) : sysAt cfg₀ w (n + 1) = ((sysAt cfg₀ w n).step (w n)).1 := rfl

theorem sysAt_tick (cfg₀ : KartConfig F) {n : Nat} {i : EspIn F} (h : w n = .tick i) :
    (sysAt cfg₀ w (n + 1)).pc = (sysAt cfg₀ w n).pc ∧
      (sysAt cfg₀ w (n + 1)).boot = (sysAt cfg₀ w n).boot ∧
      actionAt cfg₀ w n = .nothing := by
  have hact : actionAt cfg₀ w n = ((sysAt cfg₀ w n).step (w n)).2 := rfl
  rw [sysAt_succ, hact, h, System.step]
  split_ifs <;> exact ⟨rfl, rfl, rfl⟩

theorem sysAt_handler (cfg₀ : KartConfig F) {n : Nat} {a : Answers} (h : w n = .handler a) :
    (sysAt cfg₀ w (n + 1)).pc =
        (otaPost (sysAt cfg₀ w n).status.arming a (sysAt cfg₀ w n).pc).1 ∧
      (sysAt cfg₀ w (n + 1)).status = (sysAt cfg₀ w n).status ∧
      (sysAt cfg₀ w (n + 1)).boot =
        (if (sysAt cfg₀ w (n + 1)).pc = .reply then .uploaded else (sysAt cfg₀ w n).boot) ∧
      actionAt cfg₀ w n =
        (otaPost (sysAt cfg₀ w n).status.arming a (sysAt cfg₀ w n).pc).2 := by
  have hact : actionAt cfg₀ w n = ((sysAt cfg₀ w n).step (w n)).2 := rfl
  rw [sysAt_succ, hact, h]
  exact ⟨rfl, rfl, rfl, rfl⟩

theorem Upload.succ {c n : Nat} (h : Upload cfg₀ w c n)
    (hbusy : (sysAt cfg₀ w (n + 1)).pc ≠ .idle) : Upload cfg₀ w c (n + 1) := by
  refine ⟨h.idle, Nat.lt_succ_of_lt h.lt, fun m hm hcm => ?_⟩
  rcases Nat.eq_or_lt_of_le hm with rfl | hlt
  · exact hbusy
  · exact h.busy m (Nat.le_of_lt_succ hlt) hcm

theorem Upload.congr {w' : Nat → Event F} {c n : Nat} (h : Upload cfg₀ w c n)
    (hsame : ∀ m ≤ n, sysAt cfg₀ w' m = sysAt cfg₀ w m) : Upload cfg₀ w' c n := by
  refine ⟨?_, h.lt, fun m hm hcm => ?_⟩
  · rw [hsame c (Nat.le_of_lt h.lt)]
    exact h.idle
  · rw [hsame m hm]
    exact h.busy m hm hcm

/-- The first look saw the kart disarmed, and the handler's step left it so. -/
theorem Upload.not_armed {c n : Nat} (h : Upload cfg₀ w c n) : ¬ Armed cfg₀ w (c + 1) := by
  have hbusy := h.busy (c + 1) h.lt (Nat.lt_succ_self c)
  cases hw : w c with
  | tick i =>
    rw [(sysAt_tick cfg₀ hw).1] at hbusy
    exact absurd h.idle hbusy
  | handler a =>
    obtain ⟨hpc, hstatus, -, -⟩ := sysAt_handler cfg₀ hw
    intro harmed
    rw [Armed, hstatus] at harmed
    rw [hpc, h.idle, harmed] at hbusy
    exact hbusy rfl

theorem phase_idle {pc : Pc} (h : pc.phase = .idle) : pc = .idle := by
  cases pc with
  | idle => rfl
  | begin_ len => by_cases hlen : len = 0 <;> simp [Pc.phase, hlen] at h
  | inBegin len => by_cases hlen : len = 0 <;> simp [Pc.phase, hlen] at h
  | alloc len => by_cases hlen : len = 0 <;> simp [Pc.phase, hlen] at h
  | inWrite n left => by_cases hleft : left - n = 0 <;> simp [Pc.phase, hleft] at h
  | _ => exact Phase.noConfusion h

/-- Where nothing goes unseen, an upload during which the kart was armed stands where
the handler will look, and the kart is still armed. -/
theorem Upload.watched {c n : Nat} (h : Upload cfg₀ w c n)
    (hseen : ∀ m < n, c < m → ¬ (sysAt cfg₀ w m).Unseen (w m))
    (harmed : ArmedDuring cfg₀ w c n) :
    (sysAt cfg₀ w n).pc.phase = .watched ∧ Armed cfg₀ w n := by
  induction n with
  | zero => exact absurd h.lt (Nat.not_lt_zero c)
  | succ n ih =>
    obtain ⟨m, hmn, hcm, hm⟩ := harmed
    rcases Nat.eq_or_lt_of_le (Nat.le_of_lt_succ h.lt) with rfl | hlt
    · obtain rfl : m = c + 1 := Nat.le_antisymm hmn hcm
      exact absurd hm h.not_armed
    have hprev : Upload cfg₀ w c n :=
      ⟨h.idle, hlt, fun m hmn => h.busy m (Nat.le_succ_of_le hmn)⟩
    have ih := ih hprev fun m hmn => hseen m (Nat.lt_succ_of_lt hmn)
    have hnow := hseen n (Nat.lt_succ_self n) hlt
    have hcases : ArmedDuring cfg₀ w c n ∨ Armed cfg₀ w (n + 1) := by
      rcases Nat.eq_or_lt_of_le hmn with rfl | hmn'
      · exact Or.inr hm
      · exact Or.inl ⟨m, Nat.le_of_lt_succ hmn', hcm, hm⟩
    cases hw : w n with
    | tick i =>
      obtain ⟨hpc, -, -⟩ := sysAt_tick cfg₀ hw
      have hnext : sysAt cfg₀ w (n + 1) = ((sysAt cfg₀ w n).step (.tick i)).1 := by
        rw [sysAt_succ, hw]
      rw [hw] at hnow
      rw [hpc]
      by_cases hbefore : ArmedDuring cfg₀ w c n
      · obtain ⟨hphase, harm⟩ := ih hbefore
        refine ⟨hphase, ?_⟩
        by_contra hdisarmed
        rw [Armed, Bool.not_eq_true, hnext] at hdisarmed
        exact hnow (Or.inr ⟨hphase, harm, hdisarmed⟩)
      · have harm := hcases.resolve_left hbefore
        refine ⟨?_, harm⟩
        rw [Armed, hnext] at harm
        cases hphase : (sysAt cfg₀ w n).pc.phase with
        | idle => exact absurd (phase_idle hphase) (hprev.busy n (Nat.le_refl n) hlt)
        | watched => rfl
        | committed => exact absurd (Or.inl ⟨hphase, harm⟩) hnow
    | handler a =>
      obtain ⟨hpc, hstatus, -, -⟩ := sysAt_handler cfg₀ hw
      have hsame : Armed cfg₀ w (n + 1) ↔ Armed cfg₀ w n := by rw [Armed, Armed, hstatus]
      have hbefore : ArmedDuring cfg₀ w c n :=
        hcases.elim id fun harm => ⟨n, Nat.le_refl n, hlt, hsame.mp harm⟩
      obtain ⟨hphase, harm⟩ := ih hbefore
      have harming : (sysAt cfg₀ w n).status.arming = true := harm
      rw [harming] at hpc
      refine ⟨?_, hsame.mpr harm⟩
      rcases (otaPost_watched a hphase).1 with hstay | ⟨hidle, -⟩
      · rw [hpc]
        exact hstay
      · exact absurd (hpc.trans hidle) (h.busy (n + 1) (Nat.le_refl _) h.lt)

def Pc.switched (pc : Pc) : Bool :=
  match pc with
  | .reply => true
  | .delay => true
  | .restart => true
  | .restarted => true
  | _ => false

theorem phase_of_switched {pc : Pc} (h : pc.switched = true) : pc.phase = .committed := by
  cases pc with
  | reply => rfl
  | delay => rfl
  | restart => rfl
  | restarted => rfl
  | _ => exact Bool.noConfusion h

theorem otaPost_switched (armed : Bool) (a : Answers) {pc : Pc} (h : pc.switched = true) :
    (otaPost armed a pc).1.switched = true := by
  cases pc with
  | reply => rfl
  | delay => rfl
  | restart => rfl
  | restarted => rfl
  | _ => exact Bool.noConfusion h

/-- The boot partition is switched only on the way to the restart. -/
theorem boot_uploaded {n : Nat} (h : (sysAt cfg₀ w n).boot = .uploaded) :
    (sysAt cfg₀ w n).pc.switched = true := by
  induction n with
  | zero => exact Image.noConfusion h
  | succ n ih =>
    cases hw : w n with
    | tick i =>
      obtain ⟨hpc, hboot, -⟩ := sysAt_tick cfg₀ hw
      rw [hboot] at h
      rw [hpc]
      exact ih h
    | handler a =>
      obtain ⟨hpc, -, hboot, -⟩ := sysAt_handler cfg₀ hw
      by_cases hreply : (sysAt cfg₀ w (n + 1)).pc = .reply
      · rw [hreply]
        rfl
      · rw [hboot, if_neg hreply] at h
        rw [hpc]
        exact otaPost_switched _ a (ih h)

theorem boot_running {n : Nat} (h : (sysAt cfg₀ w n).pc.phase ≠ .committed) :
    (sysAt cfg₀ w n).boot = .running := by
  cases hboot : (sysAt cfg₀ w n).boot with
  | running => rfl
  | uploaded => exact absurd (phase_of_switched (boot_uploaded hboot)) h

theorem otaPost_restart {armed : Bool} {a : Answers} {pc : Pc}
    (h : (otaPost armed a pc).2 = .restart) : pc = .restart := by
  cases pc with
  | restart => rfl
  | _ =>
    revert h
    simp only [otaPost]
    (repeat' split) <;> exact fun h => Action.noConfusion h

/-- **An upload stops when the kart arms.**  In an upload in which the control loop
neither arms the kart once the handler is committed nor disarms it before the
handler has looked, every step keeps what it owes the driver. -/
theorem armed_upload_stops {c n : Nat} (h : Upload cfg₀ w c n)
    (hseen : ∀ m < n, c < m → ¬ (sysAt cfg₀ w m).Unseen (w m)) : ArmedStops cfg₀ w c n := by
  have hwatched := h.watched hseen
  cases hw : w n with
  | tick i =>
    obtain ⟨hpc, -, hact⟩ := sysAt_tick cfg₀ hw
    refine ⟨fun _ => ?_, fun _ => ?_, fun harmed => ?_, fun _ hidle => ?_⟩
    · rw [hact]
      rfl
    · rw [hact]
      exact fun h => Action.noConfusion h
    · apply boot_running
      rw [hpc, (hwatched harmed).1]
      exact fun h => Phase.noConfusion h
    · rw [hpc] at hidle
      exact absurd hidle (h.busy n (Nat.le_refl n) h.lt)
  | handler a =>
    obtain ⟨hpc, -, -, hact⟩ := sysAt_handler cfg₀ hw
    -- what an upload that saw the kart armed does next
    have hstep : ArmedDuring cfg₀ w c n →
        ((sysAt cfg₀ w (n + 1)).pc.phase = .watched ∨
          (sysAt cfg₀ w (n + 1)).pc = .idle ∧
            ∃ abort status why, actionAt cfg₀ w n = .fail abort status why) ∧
          (actionAt cfg₀ w n).isFlash = false := by
      intro harmed
      obtain ⟨hphase, harm⟩ := hwatched harmed
      have harming : (sysAt cfg₀ w n).status.arming = true := harm
      rw [hpc, hact, harming]
      exact otaPost_watched a hphase
    refine ⟨fun harmed => (hstep harmed).2, fun harm hrestart => ?_, fun harmed => ?_,
      fun harmed hidle => ?_⟩
    · rw [hact] at hrestart
      have hphase := (hwatched ⟨n, Nat.le_refl n, h.lt, harm⟩).1
      rw [otaPost_restart hrestart] at hphase
      exact Phase.noConfusion hphase
    · apply boot_running
      rcases (hstep harmed).1 with hphase | ⟨hidle, -⟩
      · rw [hphase]
        exact fun h => Phase.noConfusion h
      · rw [hidle]
        exact fun h => Phase.noConfusion h
    · rcases (hstep harmed).1 with hphase | ⟨-, hfail⟩
      · rw [hidle] at hphase
        exact Phase.noConfusion hphase
      · exact hfail

end Runs

/-! ### The condition is sharp -/

/-- What breaks the promise to a driver who is armed, or was armed before. -/
def Action.breaks (armed : Bool) (act : Action) : Prop :=
  act.isFlash = true ∨ armed = true ∧ act = .restart

/-- The handler, left alone with these answers, breaks the promise before it is
idle again. -/
inductive Reaches (armed : Bool) (a : Answers) : Pc → Prop where
  | now {pc : Pc} (h : (otaPost armed a pc).2.breaks armed) : Reaches armed a pc
  | next {pc pc' : Pc} (hstep : (otaPost armed a pc).1 = pc') (hbusy : pc' ≠ .idle)
      (h : Reaches armed a pc') : Reaches armed a pc

/-- Everything succeeds, for an image of `len` bytes that arrive one by one. -/
def succeeds (len : Nat) : Answers where
  contentLen := len
  slotSize := some len
  err := none
  malloc := true
  recv := .bytes 1

theorem reaches_end (armed : Bool) (a : Answers) : Reaches armed a .end_ := .now (Or.inl rfl)

theorem reaches_restart (a : Answers) : Reaches true a .restart := .now (Or.inr ⟨rfl, rfl⟩)

/-- An armed kart in a committed phase. -/
theorem reaches_of_committed (len : Nat) {pc : Pc} (h : pc.phase = .committed)
    (hrun : pc ≠ .restarted) : Reaches true (succeeds len) pc := by
  have hzero : ∀ {k : Nat}, (if k = 0 then Phase.committed else .watched) = .committed →
      k = 0 := by
    intro k hk
    by_contra hne
    rw [if_neg hne] at hk
    exact Phase.noConfusion hk
  have halloc : Reaches true (succeeds len) (.alloc 0) :=
    .next rfl Pc.noConfusion (reaches_end true _)
  have hbegin : Reaches true (succeeds len) (.inBegin 0) := .next rfl Pc.noConfusion halloc
  have hdelay : Reaches true (succeeds len) .delay :=
    .next rfl Pc.noConfusion (reaches_restart _)
  have hreply : Reaches true (succeeds len) .reply := .next rfl Pc.noConfusion hdelay
  have hboot : Reaches true (succeeds len) .setBoot := .now (Or.inl rfl)
  cases pc with
  | begin_ k =>
    obtain rfl := hzero h
    exact .next rfl Pc.noConfusion hbegin
  | inBegin k =>
    obtain rfl := hzero h
    exact hbegin
  | alloc k =>
    obtain rfl := hzero h
    exact halloc
  | write n left => exact .now (Or.inl rfl)
  | inWrite n left =>
    have hloop : (otaPost true (succeeds len) (.inWrite n left)).1 = .end_ := if_pos (hzero h)
    exact .next hloop Pc.noConfusion (reaches_end true _)
  | end_ => exact reaches_end true _
  | inEnd => exact .next rfl Pc.noConfusion hboot
  | setBoot => exact hboot
  | inSetBoot => exact .next rfl Pc.noConfusion hreply
  | reply => exact hreply
  | delay => exact hdelay
  | restart => exact reaches_restart _
  | restarted => exact absurd rfl hrun
  | _ => exact Phase.noConfusion h

/-- What is still to be received is never nothing, except before the size check. -/
def Pc.hasWork : Pc → Prop
  | .slot len => len ≠ 0
  | .recv left => left ≠ 0
  | _ => True

/-- A kart that disarmed before the handler looked. -/
theorem reaches_of_watched {pc : Pc} (h : pc.phase = .watched) (hwork : pc.hasWork) :
    ∃ len, Reaches false (succeeds len) pc := by
  have hnonzero : ∀ {k : Nat}, (if k = 0 then Phase.committed else .watched) = .watched →
      k ≠ 0 := by
    rintro k hk rfl
    exact Phase.noConfusion hk
  have hlook : ∀ len n left, Reaches false (succeeds len) (.look n left) := fun len n left =>
    .next rfl Pc.noConfusion (.now (Or.inl rfl))
  have hrecv : ∀ len {left : Nat}, left ≠ 0 → Reaches false (succeeds len) (.recv left) := by
    intro len left hleft
    have hone : min 1 (min left BUF) ≠ 0 := by
      simp only [BUF]
      omega
    have hstep : otaPost false (succeeds len) (.recv left) =
        (.look (min 1 (min left BUF)) left, .nothing) := if_neg hone
    exact .next (congrArg Prod.fst hstep) Pc.noConfusion (hlook _ _ _)
  have halloc : ∀ len {left : Nat}, left ≠ 0 → Reaches false (succeeds len) (.alloc left) :=
    fun len left hleft => .next (if_neg hleft) Pc.noConfusion (hrecv len hleft)
  have hbegin : ∀ len {left : Nat}, left ≠ 0 → Reaches false (succeeds len) (.begin_ left) :=
    fun len left hleft => .next rfl Pc.noConfusion (.next rfl Pc.noConfusion (halloc len hleft))
  cases pc with
  | slot len =>
    have hsize : ¬ (len = 0 ∨ len > len) := by
      rintro (hzero | hgt)
      · exact hwork hzero
      · exact Nat.lt_irrefl len hgt
    have hstep : (otaPost false (succeeds len) (.slot len)).1 = .begin_ len :=
      congrArg Prod.fst (if_neg hsize)
    exact ⟨len, .next hstep Pc.noConfusion (hbegin len hwork)⟩
  | begin_ len => exact ⟨0, hbegin 0 (hnonzero h)⟩
  | inBegin len => exact ⟨0, .next rfl Pc.noConfusion (halloc 0 (hnonzero h))⟩
  | alloc len => exact ⟨0, halloc 0 (hnonzero h)⟩
  | recv left => exact ⟨0, hrecv 0 hwork⟩
  | look n left => exact ⟨0, hlook 0 n left⟩
  | inWrite n left =>
    exact ⟨0, .next (if_neg (hnonzero h)) Pc.noConfusion (hrecv 0 (hnonzero h))⟩
  | _ => exact Phase.noConfusion h

section Sharp

variable {cfg₀ : KartConfig F} {w : Nat → Event F}

/-- A run that is the handler's alone from step `n` on goes where `Reaches` says. -/
theorem Reaches.exists_step {armed : Bool} {a : Answers} {pc : Pc} (h : Reaches armed a pc)
    {c n : Nat} (hpc : (sysAt cfg₀ w n).pc = pc)
    (harmed : (sysAt cfg₀ w n).status.arming = armed) (hup : Upload cfg₀ w c n)
    (halone : ∀ m, n ≤ m → w m = .handler a) :
    ∃ k, n ≤ k ∧ Upload cfg₀ w c k ∧ (sysAt cfg₀ w k).status.arming = armed ∧
      (actionAt cfg₀ w k).breaks armed := by
  induction h generalizing n with
  | now h =>
    obtain ⟨-, -, -, hact⟩ := sysAt_handler cfg₀ (halone n (Nat.le_refl n))
    rw [hpc, harmed] at hact
    exact ⟨n, Nat.le_refl n, hup, harmed, hact ▸ h⟩
  | next hstep hbusy h ih =>
    obtain ⟨hnext, hstatus, -, -⟩ := sysAt_handler cfg₀ (halone n (Nat.le_refl n))
    rw [hpc, harmed, hstep] at hnext
    have hup' : Upload cfg₀ w c (n + 1) := hup.succ (hnext ▸ hbusy)
    obtain ⟨k, hk, hrest⟩ := ih hnext (hstatus ▸ harmed) hup'
      fun m hm => halone m (Nat.le_of_succ_le hm)
    exact ⟨k, Nat.le_of_succ_le hk, hrest⟩

theorem sysAt_congr {w' : Nat → Event F} {n : Nat} (h : ∀ m < n, w' m = w m) :
    sysAt cfg₀ w' n = sysAt cfg₀ w n :=
  Mealy.Machine.stateAt_congr _ h

theorem loop_recv {left left' : Nat} (h : Pc.loop left = .recv left') : left' ≠ 0 := by
  rintro rfl
  unfold Pc.loop at h
  split_ifs at h with hleft
  exact hleft (Pc.recv.inj h)

theorem otaPost_recv {armed : Bool} {a : Answers} {pc : Pc} {left : Nat}
    (h : (otaPost armed a pc).1 = .recv left) : left ≠ 0 ∨ pc = .recv left := by
  cases pc with
  | alloc len =>
    simp only [otaPost] at h
    split_ifs at h
    exact Or.inl (loop_recv h)
  | recv left' =>
    simp only [otaPost] at h
    split at h
    · exact Or.inr h
    · exact Pc.noConfusion h
    · split_ifs at h
  | inWrite n left' =>
    simp only [otaPost] at h
    split at h
    · exact Pc.noConfusion h
    · exact Or.inl (loop_recv h)
  | _ =>
    revert h
    simp only [otaPost]
    (repeat' split) <;> exact fun h => Pc.noConfusion h

/-- The receive loop runs with something left only. -/
theorem recv_pos {n left : Nat} (h : (sysAt cfg₀ w n).pc = .recv left) : left ≠ 0 := by
  induction n with
  | zero => exact Pc.noConfusion h
  | succ n ih =>
    cases hw : w n with
    | tick i =>
      rw [(sysAt_tick cfg₀ hw).1] at h
      exact ih h
    | handler a =>
      rw [(sysAt_handler cfg₀ hw).1] at h
      rcases otaPost_recv h with hpos | hpc
      · exact hpos
      · exact ih hpc

/-- **Every unseen step can break the promise.**  Whatever went before, from there
on the handler alone may do so, unless the upload has no length or the restart is
over. -/
theorem unseen_breaks {c n : Nat} (h : Upload cfg₀ w c n)
    (hunseen : (sysAt cfg₀ w n).Unseen (w n)) (hlen : (sysAt cfg₀ w n).pc ≠ .slot 0)
    (hrun : (sysAt cfg₀ w n).pc ≠ .restarted) :
    ∃ w', (∀ m ≤ n, w' m = w m) ∧ ∃ k, Upload cfg₀ w' c k ∧ ¬ ArmedStops cfg₀ w' c k := by
  cases hw : w n with
  | handler a =>
    rw [hw] at hunseen
    exact hunseen.elim
  | tick i =>
    obtain ⟨hpc, -, -⟩ := sysAt_tick cfg₀ hw
    have hwork : (sysAt cfg₀ w n).pc.hasWork := by
      cases hcase : (sysAt cfg₀ w n).pc with
      | slot len =>
        rintro rfl
        exact hlen hcase
      | recv left => exact recv_pos hcase
      | _ => trivial
    have hnext : sysAt cfg₀ w (n + 1) = ((sysAt cfg₀ w n).step (.tick i)).1 := by
      rw [sysAt_succ, hw]
    have hreach : ∃ armed len, Reaches armed (succeeds len) (sysAt cfg₀ w n).pc ∧
        (sysAt cfg₀ w (n + 1)).status.arming = armed ∧ ArmedDuring cfg₀ w c (n + 1) := by
      rw [hw] at hunseen
      rcases hunseen with ⟨hphase, harmed⟩ | ⟨hphase, hbefore, hafter⟩
      · rw [← hnext] at harmed
        exact ⟨true, 0, reaches_of_committed 0 hphase hrun, harmed,
          n + 1, Nat.le_refl _, Nat.lt_succ_of_lt h.lt, harmed⟩
      · rw [← hnext] at hafter
        obtain ⟨len, hr⟩ := reaches_of_watched hphase hwork
        exact ⟨false, len, hr, hafter, n, Nat.le_succ n, h.lt, hbefore⟩
    obtain ⟨armed, len, hr, harmed, m, hmn, hcm, hm⟩ := hreach
    -- the same run up to the tick, then the handler alone
    let w' : Nat → Event F := fun j => if j ≤ n then w j else .handler (succeeds len)
    have hagree : ∀ j ≤ n, w' j = w j := fun j hj => if_pos hj
    have hsame : ∀ j ≤ n + 1, sysAt cfg₀ w' j = sysAt cfg₀ w j := fun j hj =>
      sysAt_congr fun l hl => hagree l (Nat.le_of_lt_succ (Nat.lt_of_lt_of_le hl hj))
    have hup : Upload cfg₀ w' c (n + 1) :=
      (h.succ (hpc ▸ h.busy n (Nat.le_refl n) h.lt)).congr hsame
    have halone : ∀ j, n + 1 ≤ j → w' j = .handler (succeeds len) := fun j hj =>
      if_neg (Nat.not_le_of_lt hj)
    rw [← hpc, ← hsame (n + 1) (Nat.le_refl _)] at hr
    rw [← hsame (n + 1) (Nat.le_refl _)] at harmed
    obtain ⟨k, hk, hupk, hstatus, hbreaks⟩ := hr.exists_step rfl harmed hup halone
    refine ⟨w', hagree, k, hupk, fun hstops => ?_⟩
    rcases hbreaks with hflash | ⟨htrue, hrestart⟩
    · have hduring : ArmedDuring cfg₀ w' c k := by
        refine ⟨m, Nat.le_trans hmn hk, hcm, ?_⟩
        rw [Armed, hsame m hmn]
        exact hm
      rw [hstops.flash hduring] at hflash
      exact Bool.noConfusion hflash
    · exact hstops.restart (hstatus.trans htrue) hrestart

end Sharp

/-! ### Arming on the bench -/

def startHeld : Input Float32 :=
  benchInput.onData 1 { (Input.noReport : HidReport Float32) with start := true }

def goodAnswers : Answers where
  contentLen := 1
  slotSize := some 65536
  err := none
  malloc := true
  recv := .bytes 1

/-- The START press begins in step `k`, its hold completes in step `k + 1`, and all
other steps are the handler's. -/
def armingRun (k n : Nat) : Event Float32 :=
  if n = k then .tick { input := startHeld, cfg := benchCfg, nowUs := 1 }
  else if n = k + 1 then .tick { input := startHeld, cfg := benchCfg, nowUs := 300001 }
  else .handler goodAnswers

/-- The kart arms during `esp_ota_begin`, and the look after the first chunk fails
the upload. -/
theorem armed_upload_stops_bench :
    ArmedStops benchCfg (armingRun 3) 0 8 ∧
      actionAt benchCfg (armingRun 3) 8 = .fail true "500 Internal Server Error"
        "Kart armed during the upload: aborted." := by
  have hupload : Upload benchCfg (armingRun 3) 0 8 := ⟨rfl, by decide, by decide +kernel⟩
  exact ⟨armed_upload_stops hupload (by decide +kernel), by decide +kernel⟩

/-- The kart arms after the only look: the handler still writes, ends, switches the
boot partition and restarts, all with the kart armed. -/
theorem late_arming_not_stopped :
    Upload benchCfg (armingRun 7) 0 17 ∧ Armed benchCfg (armingRun 7) 9 ∧
      actionAt benchCfg (armingRun 7) 9 = .write 1 ∧
      actionAt benchCfg (armingRun 7) 11 = .end_ ∧
      actionAt benchCfg (armingRun 7) 13 = .setBoot ∧
      (sysAt benchCfg (armingRun 7) 15).boot = .uploaded ∧
      Armed benchCfg (armingRun 7) 17 ∧ actionAt benchCfg (armingRun 7) 17 = .restart ∧
      ¬ ArmedStops benchCfg (armingRun 7) 0 17 := by
  have hupload : Upload benchCfg (armingRun 7) 0 17 := ⟨rfl, by decide, by decide +kernel⟩
  have harmed : (sysAt benchCfg (armingRun 7) 17).status.arming = true := by decide +kernel
  have hrestart : actionAt benchCfg (armingRun 7) 17 = .restart := by decide +kernel
  refine ⟨hupload, ?_, by decide +kernel, by decide +kernel, by decide +kernel,
    by decide +kernel, harmed, hrestart, fun hstops => hstops.restart harmed hrestart⟩
  unfold Armed
  decide +kernel

end ota

end KartFirmware

import KartFirmware.Controller
import Mathlib.Data.Nat.Count

/-!
# The rumble relay

`input::rumble` and `inputbp_take_rumble`: the control task posts a vibration, and the
Bluetooth task takes it at the next report of a gamepad that can vibrate.  The two run on
different cores over four atomic variables, so the steps of this model are the single
stores, loads and exchanges, in any order that the two tasks can make of them.

A take that overlaps a post can mix two vibrations.  It is never the last word: the flag is
written last, so the post raises it again, and a further take plays the post whole
(`rumble_relay`).
-/

namespace KartFirmware

structure Vibration where
  strong : UInt8
  weak : UInt8
  durMs : UInt16
deriving DecidableEq

def RumbleCmd.vibration (cmd : RumbleCmd) : Vibration := ⟨cmd.strong, cmd.weak, cmd.durationMs⟩

namespace RumbleRelay

/-- `m_rumble_strong`, `m_rumble_weak`, `m_rumble_dur`. -/
structure Fields where
  strong : UInt32
  weak : UInt32
  dur : UInt32
deriving DecidableEq

/-- Where the control task is in `input::rumble`. -/
inductive Post where
  | idle
  | storeStrong (v : Vibration)
  | storeWeak (v : Vibration)
  | storeDur (v : Vibration)
  | storePending (v : Vibration)
deriving DecidableEq

/-- Where the Bluetooth task is in `inputbp_take_rumble`, with what it has loaded. -/
inductive Take where
  | idle
  | loadStrong
  | loadWeak (strong : UInt8)
  | loadDur (strong weak : UInt8)
deriving DecidableEq

structure Relay where
  pending : Bool
  fields : Fields
  post : Post
  take : Take
  /-- The posts that are complete, the newest first. -/
  posted : List Vibration
  /-- What the gamepad was told, the newest first. -/
  played : List Vibration
deriving DecidableEq

def boot : Relay where
  pending := false
  fields := ⟨0, 0, 0⟩
  post := .idle
  take := .idle
  posted := []
  played := []

/-! ### The steps of the two tasks -/

namespace Relay

/-- The next step of the control task.  Between two posts it is a tick, with its command. -/
def control (s : Relay) (cmd : RumbleCmd) : Relay :=
  match s.post with
  | .idle => if cmd.active then { s with post := .storeStrong cmd.vibration } else s
  | .storeStrong v =>
    { s with fields := { s.fields with strong := v.strong.toUInt32 }, post := .storeWeak v }
  | .storeWeak v =>
    { s with fields := { s.fields with weak := v.weak.toUInt32 }, post := .storeDur v }
  | .storeDur v =>
    { s with fields := { s.fields with dur := v.durMs.toUInt32 }, post := .storePending v }
  | .storePending v => { s with pending := true, post := .idle, posted := v :: s.posted }

/-- The next step of the Bluetooth task.  Between two takes it is a report, of a gamepad
that can vibrate or not. -/
def bluetooth (s : Relay) (vibrates : Bool) : Relay :=
  match s.take with
  | .idle =>
    if vibrates && s.pending then { s with pending := false, take := .loadStrong } else s
  | .loadStrong => { s with take := .loadWeak s.fields.strong.toUInt8 }
  | .loadWeak strong => { s with take := .loadDur strong s.fields.weak.toUInt8 }
  | .loadDur strong weak =>
    { s with take := .idle, played := ⟨strong, weak, s.fields.dur.toUInt16⟩ :: s.played }

end Relay

/-- Whose step is next. -/
inductive Event where
  | control (cmd : RumbleCmd)
  | bluetooth (vibrates : Bool)
deriving DecidableEq

/-- Every word of events is an order of the steps of the two tasks. -/
def machine : Mealy.Machine Relay Event Unit where
  init := boot
  step s e :=
    (match e with
      | .control cmd => s.control cmd
      | .bluetooth vibrates => s.bluetooth vibrates, ())

def relayAt (w : Nat → Event) (n : Nat) : Relay := machine.stateAt w n

theorem relayAt_succ (w : Nat → Event) (n : Nat) :
    relayAt w (n + 1) = match w n with
      | .control cmd => (relayAt w n).control cmd
      | .bluetooth vibrates => (relayAt w n).bluetooth vibrates := rfl

/-- A post that overlaps a take: half of the one and half of the other is played, and then
the whole second one. -/
example :
    let first : Event := .control ⟨true, 90, 160, 220⟩
    let second : Event := .control ⟨true, 255, 255, 450⟩
    let report : Event := .bluetooth true
    let steps := [first, first, first, first, first, report, report, second, second, second,
      second, report, report, second, report, report, report, report]
    (steps.foldl (fun s e => (machine.step s e).1) boot).played =
      [⟨255, 255, 450⟩, ⟨90, 255, 450⟩] := by
  decide

/-! ### What the tasks keep -/

/-- The fields after a post of `v`. -/
def fieldsOf (v : Vibration) : Fields := ⟨v.strong.toUInt32, v.weak.toUInt32, v.durMs.toUInt32⟩

/-- What a post has stored so far; between two posts, the last one. -/
def Stored (f : Fields) (posted : List Vibration) : Post → Prop
  | .idle => ∀ v ∈ posted.head?, f = fieldsOf v
  | .storeStrong _ => True
  | .storeWeak v => f.strong = v.strong.toUInt32
  | .storeDur v => f.strong = v.strong.toUInt32 ∧ f.weak = v.weak.toUInt32
  | .storePending v => f = fieldsOf v

/-- What a take has loaded so far is of the last post. -/
def Loaded (posted : List Vibration) : Take → Prop
  | .idle => True
  | .loadStrong => posted ≠ []
  | .loadWeak strong => ∃ v ∈ posted.head?, strong = v.strong
  | .loadDur strong weak => ∃ v ∈ posted.head?, strong = v.strong ∧ weak = v.weak

structure Relay.Inv (s : Relay) : Prop where
  stored : Stored s.fields s.posted s.post
  posted : s.pending = true → s.posted ≠ []
  loaded : s.post = .idle → s.pending = false → Loaded s.posted s.take
  played : s.post = .idle → s.pending = false → s.take = .idle →
    s.played.head? = s.posted.head?
  once : s.played.length + (if s.take = .idle then 0 else 1) + (if s.pending then 1 else 0) ≤
    s.posted.length

theorem inv_boot : boot.Inv where
  stored := by simp [boot, Stored]
  posted := by simp [boot]
  loaded := by simp [boot, Loaded]
  played := by simp [boot]
  once := by simp [boot]

theorem Relay.Inv.control {s : Relay} (h : s.Inv) (cmd : RumbleCmd) : (s.control cmd).Inv := by
  have hstored := h.stored
  cases hpost : s.post with
  | idle =>
    simp only [Relay.control, hpost]
    split_ifs
    · exact ⟨trivial, h.posted, nofun, nofun, h.once⟩
    · exact h
  | storeStrong v =>
    simp only [Relay.control, hpost]
    exact ⟨rfl, h.posted, nofun, nofun, h.once⟩
  | storeWeak v =>
    rw [hpost] at hstored
    simp only [Relay.control, hpost]
    exact ⟨⟨hstored, rfl⟩, h.posted, nofun, nofun, h.once⟩
  | storeDur v =>
    rw [hpost] at hstored
    obtain ⟨hstrong, hweak⟩ := hstored
    simp only [Relay.control, hpost]
    refine ⟨?_, h.posted, nofun, nofun, h.once⟩
    simp only [Stored, fieldsOf, hstrong, hweak]
  | storePending v =>
    rw [hpost] at hstored
    have honce := h.once
    simp only [Relay.control, hpost]
    refine ⟨?_, fun _ => List.cons_ne_nil _ _, nofun, nofun, ?_⟩
    · intro v' hv'
      obtain rfl : v = v' := Option.some.inj hv'
      exact hstored
    · simp only [if_true, List.length_cons]
      split_ifs at honce ⊢ <;> omega

theorem Relay.Inv.bluetooth {s : Relay} (h : s.Inv) (vibrates : Bool) :
    (s.bluetooth vibrates).Inv := by
  have honce := h.once
  have hloaded := h.loaded
  have hfields : s.post = .idle → ∀ v ∈ s.posted.head?, s.fields = fieldsOf v := by
    intro hidle
    have hstored := h.stored
    rwa [hidle] at hstored
  cases htake : s.take with
  | idle =>
    simp only [Relay.bluetooth, htake]
    split_ifs with hplays
    · obtain ⟨-, hpending⟩ := Bool.and_eq_true_iff.mp hplays
      rw [htake, hpending] at honce
      exact ⟨h.stored, nofun, fun _ _ => h.posted hpending, fun _ _ => nofun, by simpa using honce⟩
    · exact h
  | loadStrong =>
    rw [htake] at honce hloaded
    simp only [Relay.bluetooth, htake]
    refine ⟨h.stored, h.posted, ?_, fun _ _ => nofun, by simpa using honce⟩
    intro hidle hpending
    obtain ⟨v, vs, hposted⟩ := List.exists_cons_of_ne_nil (hloaded hidle hpending)
    have hv : v ∈ s.posted.head? := by simp [hposted]
    refine ⟨v, hv, ?_⟩
    rw [hfields hidle v hv, fieldsOf, UInt8.toUInt8_toUInt32]
  | loadWeak strong =>
    rw [htake] at honce hloaded
    simp only [Relay.bluetooth, htake]
    refine ⟨h.stored, h.posted, ?_, fun _ _ => nofun, by simpa using honce⟩
    intro hidle hpending
    obtain ⟨v, hv, hstrong⟩ := hloaded hidle hpending
    refine ⟨v, hv, hstrong, ?_⟩
    rw [hfields hidle v hv, fieldsOf, UInt8.toUInt8_toUInt32]
  | loadDur strong weak =>
    rw [htake] at honce hloaded
    simp only [Relay.bluetooth, htake]
    refine ⟨h.stored, h.posted, fun _ _ => trivial, ?_, by simpa using honce⟩
    intro hidle hpending _
    obtain ⟨v, hv, rfl, rfl⟩ := hloaded hidle hpending
    rw [hfields hidle v hv, fieldsOf, UInt16.toUInt16_toUInt32, List.head?_cons]
    exact (Option.mem_def.mp hv).symm

theorem inv_relayAt (w : Nat → Event) (n : Nat) : (relayAt w n).Inv := by
  refine machine.stateAt_induction (fun _ s => s.Inv) inv_boot (fun n s h => ?_) n
  change Relay.Inv (match w n with
    | .control cmd => s.control cmd
    | .bluetooth vibrates => s.bluetooth vibrates)
  cases w n with
  | control cmd => exact h.control cmd
  | bluetooth vibrates => exact h.bluetooth vibrates

/-! ### A time without posts -/

/-- The steps of the Bluetooth task up to the end of all takes, without another post. -/
def Relay.left (s : Relay) : Nat :=
  (if s.pending then 4 else 0) +
    match s.take with
    | .idle => 0
    | .loadStrong => 3
    | .loadWeak _ => 2
    | .loadDur _ _ => 1

theorem Relay.left_le (s : Relay) : s.left ≤ 7 := by
  unfold Relay.left
  cases s.pending <;> cases s.take <;> simp

theorem left_eq_zero {s : Relay} (h : s.left = 0) : s.pending = false ∧ s.take = .idle := by
  unfold Relay.left at h
  cases hpending : s.pending <;> cases htake : s.take <;> simp [hpending, htake] at h ⊢

theorem left_bluetooth (s : Relay) (vibrates : Bool) :
    (s.bluetooth vibrates).left ≤ s.left - if vibrates then 1 else 0 := by
  unfold Relay.bluetooth Relay.left
  cases htake : s.take <;> cases hpending : s.pending <;> cases vibrates <;>
    simp [htake, hpending]

theorem control_of_idle {s : Relay} {cmd : RumbleCmd} (hbefore : s.post = .idle)
    (hafter : (s.control cmd).post = .idle) : s.control cmd = s := by
  simp only [Relay.control, hbefore] at hafter ⊢
  split_ifs with hactive
  · rw [if_pos hactive] at hafter
    exact nomatch hafter
  · rfl

theorem control_played (s : Relay) (cmd : RumbleCmd) : (s.control cmd).played = s.played := by
  unfold Relay.control
  cases s.post with
  | idle =>
    dsimp only
    split_ifs <;> rfl
  | _ => rfl

theorem bluetooth_post (s : Relay) (vibrates : Bool) :
    (s.bluetooth vibrates).post = s.post ∧ (s.bluetooth vibrates).posted = s.posted := by
  unfold Relay.bluetooth
  cases s.take with
  | idle =>
    dsimp only
    split_ifs <;> exact ⟨rfl, rfl⟩
  | _ => exact ⟨rfl, rfl⟩

/-- The last step of a take plays. -/
theorem bluetooth_played (s : Relay) (vibrates : Bool) :
    (s.bluetooth vibrates).played = s.played ∨
      s.take ≠ .idle ∧ (s.bluetooth vibrates).take = .idle ∧
        (s.bluetooth vibrates).pending = s.pending := by
  unfold Relay.bluetooth
  cases s.take with
  | idle =>
    left
    dsimp only
    split_ifs <;> rfl
  | loadStrong => exact Or.inl rfl
  | loadWeak strong => exact Or.inl rfl
  | loadDur strong weak => exact Or.inr ⟨nofun, rfl, rfl⟩

/-- A take that begins after the last post sees no flag. -/
theorem bluetooth_pending {s : Relay} (vibrates : Bool) (h : s.take = .idle ∨ s.pending = false) :
    (s.bluetooth vibrates).take = .idle ∨ (s.bluetooth vibrates).pending = false := by
  unfold Relay.bluetooth
  cases htake : s.take with
  | idle =>
    dsimp only
    split_ifs
    · exact Or.inr rfl
    · exact Or.inl htake
  | loadStrong => exact Or.inr (h.resolve_left (by simp [htake]))
  | loadWeak strong => exact Or.inr (h.resolve_left (by simp [htake]))
  | loadDur strong weak => exact Or.inl rfl

section Pause

variable {w : Nat → Event} {n len : Nat}

/-- No post is in progress from step `n` on, for `len` steps. -/
def Pause (w : Nat → Event) (n len : Nat) : Prop := ∀ k ≤ len, (relayAt w (n + k)).post = .idle

/-- In a pause the control task changes nothing. -/
theorem Pause.succ_cases (h : Pause w n (len + 1)) :
    ((∃ cmd, w (n + len) = .control cmd) ∧ relayAt w (n + (len + 1)) = relayAt w (n + len)) ∨
      ∃ vibrates, w (n + len) = .bluetooth vibrates ∧
        relayAt w (n + (len + 1)) = (relayAt w (n + len)).bluetooth vibrates := by
  have hsucc := relayAt_succ w (n + len)
  have hafter := h (len + 1) (Nat.le_refl _)
  change (relayAt w (n + len + 1)).post = .idle at hafter
  cases hevent : w (n + len) with
  | control cmd =>
    rw [hevent] at hsucc
    rw [hsucc] at hafter
    exact Or.inl ⟨⟨cmd, rfl⟩, hsucc.trans (control_of_idle (h len (Nat.le_succ _)) hafter)⟩
  | bluetooth vibrates =>
    rw [hevent] at hsucc
    exact Or.inr ⟨vibrates, rfl, hsucc⟩

theorem Pause.init (h : Pause w n (len + 1)) : Pause w n len :=
  fun k hk => h k (Nat.le_succ_of_le hk)

/-- The steps at which a report of a vibrating gamepad finds the Bluetooth task. -/
def reports (w : Nat → Event) (n len : Nat) : Nat :=
  Nat.count (fun k => w (n + k) = .bluetooth true) len

theorem Pause.left_le (h : Pause w n len) : (relayAt w (n + len)).left ≤ 7 - reports w n len := by
  induction len with
  | zero => simpa [reports] using (relayAt w n).left_le
  | succ len ih =>
    have hbefore := ih h.init
    rw [reports, Nat.count_succ]
    change _ ≤ 7 - (reports w n len + _)
    rcases h.succ_cases with ⟨⟨cmd, hevent⟩, heq⟩ | ⟨vibrates, hevent, heq⟩
    · rw [heq, hevent]
      simpa using hbefore
    · have hstep := left_bluetooth (relayAt w (n + len)) vibrates
      rw [heq, hevent]
      cases vibrates
      · simp only [Event.bluetooth.injEq, Bool.false_eq_true, if_false] at hstep ⊢
        omega
      · simp only [if_true] at hstep ⊢
        omega

theorem Pause.pending (h : Pause w n len) (hbefore : (relayAt w n).take = .idle) :
    (relayAt w (n + len)).take = .idle ∨ (relayAt w (n + len)).pending = false := by
  induction len with
  | zero => exact Or.inl hbefore
  | succ len ih =>
    rcases h.succ_cases with ⟨-, heq⟩ | ⟨vibrates, -, heq⟩
    · rw [heq]
      exact ih h.init
    · rw [heq]
      exact bluetooth_pending vibrates (ih h.init)

end Pause

/-- **The rumble relay**, in every order of the steps of its two tasks.  No post is played
twice.  What is played in a take that no post overlaps is the last post; and whatever
overlaps, when nothing is pending and the tasks are done the last post is what was played
last, which seven steps of a report of a vibrating gamepad reach. -/
theorem rumble_relay (w : Nat → Event) :
    (∀ n, (relayAt w n).played.length ≤ (relayAt w n).posted.length) ∧
      (∀ n len v, Pause w n len → (relayAt w n).take = .idle →
        (relayAt w (n + (len + 1))).played = v :: (relayAt w (n + len)).played →
        (relayAt w (n + len)).posted.head? = some v) ∧
      (∀ n, (relayAt w n).post = .idle → (relayAt w n).take = .idle →
        (relayAt w n).pending = false →
        (relayAt w n).played.head? = (relayAt w n).posted.head?) ∧
      ∀ n len, Pause w n len → 7 ≤ reports w n len →
        (relayAt w (n + len)).played.head? = (relayAt w (n + len)).posted.head? := by
  have hquiet : ∀ n, (relayAt w n).post = .idle → (relayAt w n).take = .idle →
      (relayAt w n).pending = false →
      (relayAt w n).played.head? = (relayAt w n).posted.head? :=
    fun n hpost htake hpending => (inv_relayAt w n).played hpost hpending htake
  refine ⟨?_, ?_, hquiet, ?_⟩
  · intro n
    have honce := (inv_relayAt w n).once
    omega
  · intro n len v hpause hbefore hplayed
    have hsucc := relayAt_succ w (n + len)
    have hgrown : (relayAt w (n + len + 1)).played ≠ (relayAt w (n + len)).played := by
      intro hsame
      exact List.cons_ne_self _ _ (hplayed.symm.trans hsame)
    cases hevent : w (n + len) with
    | control cmd =>
      rw [hevent] at hsucc
      rw [hsucc] at hgrown
      exact absurd (control_played _ cmd) hgrown
    | bluetooth vibrates =>
      rw [hevent] at hsucc
      rw [hsucc] at hgrown
      obtain ⟨hpost, hposted⟩ := bluetooth_post (relayAt w (n + len)) vibrates
      obtain ⟨hbusy, htake, hpending⟩ := (bluetooth_played _ vibrates).resolve_left hgrown
      rw [(hpause.pending hbefore).resolve_left hbusy] at hpending
      have hlast := hquiet (n + len + 1)
      rw [hsucc] at hlast
      have hlast := hlast (hpost.trans (hpause len (Nat.le_refl _))) htake hpending
      rw [hposted, ← hsucc] at hlast
      change (relayAt w (n + (len + 1))).played.head? = _ at hlast
      rw [hplayed] at hlast
      exact hlast.symm
  · intro n len hpause hreports
    have hleft := hpause.left_le
    obtain ⟨hpending, htake⟩ := left_eq_zero (s := relayAt w (n + len)) (by omega)
    exact hquiet (n + len) (hpause len (Nat.le_refl _)) htake hpending

end RumbleRelay

end KartFirmware

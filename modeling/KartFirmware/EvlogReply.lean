import KartFirmware.ConfigReply
import KartFirmware.FlashFaults

/-!
# The event-log reply

`buildEvlogPb` of `webserver.cpp`: the last records of the journal, read in bites of
sixteen under the log mutex, while the control task pushes and the LED task drains between
any two of them.  nanopb encodes the list twice, so every record is read twice.

What is below the append point stays as it is while the drains only append
(`evlog.Extends`).  A drain that finds the partition full erases it.
-/

set_option linter.unusedSectionVars false

namespace KartFirmware

namespace evlog

open NorFlash

/-! ### Drains that restart the journal -/

namespace Log

section Restarts

variable {δ : Type} (drv : FlashDriver δ)

/-- The partition is full for these records. -/
def fills (s : Log δ) (recs : List Rec) : Bool :=
  match s.part with
  | none => false
  | some size => s.writeOff + recs.length * REC_BYTES > size

def drainRestarts (s : Log δ) : Nat → Bool
  | 0 => false
  | fuel + 1 =>
    let batch := s.collect 16 s.tail
    if batch.1 = [] then false
    else
      s.fills batch.1 ||
        drainRestarts { s.flashAppend drv batch.1 with tail := batch.2 } fuel

variable {F : Type} [CFloat F]

/-- One of the batches that `maintain` drains finds the partition full. -/
def maintainRestarts (s : Log δ) (st : KartStatus F) (busy : Bool) : Bool :=
  if s.part = none then false
  else if s.head = s.tail then false
  else if seenArmed st busy then false
  else s.drainRestarts drv s.pending

end Restarts

/-! ### Drains that only append -/

/-- Everything below the append point is as it was. -/
structure Extends (s s' : Log Nor) : Prop where
  part : s'.part = s.part
  grows : s.writeOff ≤ s'.writeOff
  kept : ∀ a < s.writeOff, s'.flash.mem a = s.flash.mem a

variable {size : Nat} {s s' s'' : Log Nor}

theorem Extends.refl (s : Log Nor) : Extends s s := ⟨rfl, le_rfl, fun _ _ => rfl⟩

theorem Extends.trans (h : Extends s s') (h' : Extends s' s'') : Extends s s'' := by
  refine ⟨h'.part.trans h.part, h.grows.trans h'.grows, fun a ha => ?_⟩
  rw [h'.kept a (lt_of_lt_of_le ha h.grows), h.kept a ha]

/-- A write leaves the cells below it alone, whatever befalls it. -/
theorem write_below (d : Nor) (off : Nat) (recs : List Rec) :
    ∀ a < off, (d.write size off recs).2.mem a = d.mem a := by
  apply Nor.write_cases (P := fun r => ∀ a < off, r.2.mem a = d.mem a)
  · exact fun _ _ _ => rfl
  · exact fun _ a ha => program_below d.mem _ _ ha
  · exact fun _ _ _ a ha => program_below d.mem _ _ ha
  · exact fun _ _ a ha => program_below d.mem _ _ ha

theorem appendAt_extends (s : Log Nor) (recs : List Rec) :
    Extends s (s.appendAt (norDriver size) recs) := by
  refine ⟨(appendAt_sameRam _ s recs).part, ?_, fun a ha => ?_⟩
  · rw [appendAt_writeOff]
    split_ifs
    · exact Nat.le_add_right _ _
    · exact le_rfl
  · rw [appendAt_flash]
    exact write_below s.flash s.writeOff recs a ha

theorem flashAppend_extends {recs : List Rec} (h : s.fills recs = false) :
    Extends s (s.flashAppend (norDriver size) recs) := by
  unfold flashAppend
  cases hpart : s.part with
  | none => exact .refl s
  | some size' =>
    rw [fills, hpart] at h
    dsimp only at h ⊢
    rw [if_neg (of_decide_eq_false h)]
    split_ifs
    · exact .refl s
    · exact appendAt_extends s recs

theorem drainTurns_extends (fuel : Nat)
    (h : s.drainRestarts (norDriver size) fuel = false) :
    Extends s (s.drainTurns (norDriver size) fuel) := by
  induction fuel generalizing s with
  | zero => exact .refl s
  | succ fuel ih =>
    rw [drainRestarts] at h
    rw [drainTurns]
    split_ifs at h ⊢ with hempty
    · exact .refl s
    · obtain ⟨hroom, hrest⟩ := Bool.or_eq_false_iff.mp h
      have hbatch : Extends s
          { s.flashAppend (norDriver size) (s.collect 16 s.tail).1 with
            tail := (s.collect 16 s.tail).2 } := by
        obtain ⟨hpart, hgrows, hkept⟩ :
            Extends s (s.flashAppend (norDriver size) (s.collect 16 s.tail).1) :=
          flashAppend_extends hroom
        exact ⟨hpart, hgrows, hkept⟩
      exact hbatch.trans (ih hrest)

variable {F : Type} [CFloat F]

theorem maintain_extends {st : KartStatus F} {busy : Bool}
    (h : s.maintainRestarts (norDriver size) st busy = false) :
    Extends s (s.maintain (norDriver size) st busy) := by
  unfold maintainRestarts at h
  unfold maintain
  split_ifs at h ⊢
  · exact .refl s
  · exact .refl s
  · exact .refl s
  · exact drainTurns_extends _ h

theorem push_extends (s : Log Nor) (ev : Ev) (data : UInt32) (nowUs : Int) :
    Extends s (s.push ev data nowUs) := by
  unfold push
  split_ifs <;> exact ⟨rfl, le_rfl, fun _ _ => rfl⟩

/-! ### The append point stays in the partition -/

/-- There is no partition, or the append point is in it. -/
def Fits (size : Nat) (s : Log Nor) : Prop :=
  s.part = none ∨ s.part = some size ∧ s.writeOff ≤ size

theorem write_fits {d : Nor} {off : Nat} {recs : List Rec} :
    (d.write size off recs).1 = true → off + 16 * recs.length ≤ size := by
  apply Nor.write_cases (P := fun r => r.1 = true → off + 16 * recs.length ≤ size)
  · exact fun _ hok => absurd hok (by simp)
  · exact fun hroom _ => hroom
  · exact fun _ _ hroom _ => hroom
  · exact fun _ _ hok => absurd hok (by simp)

theorem appendAt_fits (hpart : s.part = some size) (h : s.writeOff ≤ size) (recs : List Rec) :
    Fits size (s.appendAt (norDriver size) recs) := by
  refine Or.inr ⟨((appendAt_sameRam _ s recs).part).trans hpart, ?_⟩
  rw [appendAt_writeOff]
  split_ifs with hok
  · exact write_fits hok
  · exact h

theorem flashAppend_fits (h : Fits size s) (recs : List Rec) :
    Fits size (s.flashAppend (norDriver size) recs) := by
  unfold flashAppend
  rcases h with hpart | ⟨hpart, hoff⟩
  · rw [hpart]
    exact Or.inl hpart
  · rw [hpart]
    dsimp only
    split_ifs
    · exact Or.inr ⟨hpart, hoff⟩
    · refine appendAt_fits ?_ ?_ recs
      · exact hpart
      · exact Nat.zero_le size
    · exact Or.inr ⟨hpart, hoff⟩
    · exact appendAt_fits hpart hoff recs

theorem drainTurns_fits (fuel : Nat) (h : Fits size s) :
    Fits size (s.drainTurns (norDriver size) fuel) :=
  drainTurns_induction (norDriver size) s (P := Fits size)
    (fun t ht _ => flashAppend_fits (s := t) ht _) fuel h

theorem maintain_fits (h : Fits size s) (st : KartStatus F) (busy : Bool) :
    Fits size (s.maintain (norDriver size) st busy) := by
  unfold maintain
  split_ifs
  · exact h
  · exact h
  · exact h
  · exact drainTurns_fits _ h

theorem push_fits (h : Fits size s) (ev : Ev) (data : UInt32) (nowUs : Int) :
    Fits size (s.push ev data nowUs) := by
  unfold push
  split_ifs <;> exact h

theorem clear_fits (h : Fits size s) (st : KartStatus F) (busy : Bool) (nowUs : Int)
    (reset : UInt32) : Fits size (s.clear (norDriver size) st busy nowUs reset).1 := by
  unfold clear
  rcases h with hpart | ⟨hpart, hoff⟩
  · rw [hpart]
    exact Or.inl hpart
  · rw [hpart]
    dsimp only
    split_ifs
    · exact Or.inr ⟨hpart, hoff⟩
    · refine flashAppend_fits (Or.inr ⟨?_, ?_⟩) _
      · exact hpart
      · exact Nat.zero_le size
    · exact Or.inr ⟨hpart, hoff⟩

theorem scan_le (fuel off : Nat) (last : UInt16) :
    (s.scan (norDriver size) fuel off last).1 ≤ off + 16 * fuel := by
  induction fuel generalizing off last with
  | zero => exact le_rfl
  | succ fuel ih =>
    rw [scan]
    cases (norDriver size).read s.flash off with
    | none => exact Nat.le_add_right _ _
    | some r =>
      dsimp only
      by_cases hblank : r.head = BLANK
      · rw [if_pos hblank]
        exact Nat.le_add_right _ _
      · rw [if_neg hblank, Nat.mul_succ, Nat.add_comm (16 * fuel), ← Nat.add_assoc]
        exact ih (off + REC_BYTES) _

theorem init_fits (hsize : SECTOR ∣ size) (nowUs : Int) (reset : UInt32) :
    Fits size (s.init (norDriver size) (some size) nowUs reset) := by
  refine flashAppend_fits (Or.inr ⟨rfl, ?_⟩) _
  refine (scan_le _ 0 0).trans ?_
  simp only [REC_BYTES, SECTOR] at *
  omega

end Log

variable {F : Type} [CFloat F]

/-- Whatever has happened to the log. -/
theorem event_fits (P : Partition) {s : Log Nor} (h : s.Fits P.size) (e : FlashEvent F) :
    (s.event P e).Fits P.size := by
  cases e with
  | boot cuts nowUs reset => exact Log.init_fits P.aligned nowUs reset
  | push ev data nowUs =>
    rw [Log.event]
    split_ifs
    · exact h
    · exact Log.push_fits h ev data nowUs
  | maintain cuts st busy =>
    rw [Log.event]
    split_ifs
    · exact h
    · exact Log.maintain_fits (s := s.powered cuts) h st busy
  | clear cuts st busy nowUs reset =>
    rw [Log.event]
    split_ifs
    · exact h
    · exact Log.clear_fits (s := s.powered cuts) h st busy nowUs reset

theorem events_fits (P : Partition) {s : Log Nor} (h : s.Fits P.size)
    (events : List (FlashEvent F)) : (events.foldl (Log.event P) s).Fits P.size := by
  induction events generalizing s with
  | nil => exact h
  | cons e events ih => exact ih (event_fits P h e)

/-! ### The other tasks -/

/-- What the control task and the LED task do, with what befalls the flash operations of
a drain. -/
inductive TaskAct (F : Type) where
  | push (ev : Ev) (data : UInt32) (nowUs : Int)
  | maintain (plan : List Outcome) (st : KartStatus F) (busy : Bool)

namespace Log

variable (P : Partition)

def act (s : Log Nor) : TaskAct F → Log Nor
  | .push ev data nowUs => s.push ev data nowUs
  | .maintain plan st busy => (s.withPlan plan).maintain (norDriver P.size) st busy

def acts (s : Log Nor) (l : List (TaskAct F)) : Log Nor := l.foldl (act P) s

def actRestarts (s : Log Nor) : TaskAct F → Bool
  | .push _ _ _ => false
  | .maintain plan st busy => (s.withPlan plan).maintainRestarts (norDriver P.size) st busy

/-- One of the drains finds the partition full. -/
def actsRestart (s : Log Nor) : List (TaskAct F) → Bool
  | [] => false
  | a :: l => s.actRestarts P a || actsRestart (s.act P a) l

variable {P} {s : Log Nor}

theorem act_fits (h : Fits P.size s) (a : TaskAct F) : Fits P.size (s.act P a) := by
  cases a with
  | push ev data nowUs => exact push_fits h ev data nowUs
  | maintain plan st busy => exact maintain_fits (s := s.withPlan plan) h st busy

theorem acts_fits (h : Fits P.size s) (l : List (TaskAct F)) : Fits P.size (s.acts P l) := by
  induction l generalizing s with
  | nil => exact h
  | cons a l ih => exact ih (act_fits h a)

theorem act_extends {a : TaskAct F} (h : s.actRestarts P a = false) :
    Extends s (s.act P a) := by
  cases a with
  | push ev data nowUs => exact push_extends s ev data nowUs
  | maintain plan st busy =>
    obtain ⟨hpart, hgrows, hkept⟩ := maintain_extends (s := s.withPlan plan) h
    exact ⟨hpart, hgrows, hkept⟩

theorem acts_extends {l : List (TaskAct F)} (h : s.actsRestart P l = false) :
    Extends s (s.acts P l) := by
  induction l generalizing s with
  | nil => exact .refl s
  | cons a l ih =>
    obtain ⟨hfirst, hrest⟩ := Bool.or_eq_false_iff.mp h
    exact (act_extends hfirst).trans (ih hrest)

theorem actsRestart_append (l l' : List (TaskAct F)) :
    s.actsRestart P (l ++ l') = (s.actsRestart P l || (s.acts P l).actsRestart P l') := by
  induction l generalizing s with
  | nil => rfl
  | cons a l ih =>
    rw [List.cons_append, actsRestart, ih, actsRestart, Bool.or_assoc]
    rfl

end Log

/-! ### Records that are read again -/

/-- The valid records of `n` slots from slot `i` on. -/
def slots (m : Mem) (i n : Nat) : List Rec :=
  ((List.range' i n).map fun j => decodeRec m (16 * j)).filter recValid

theorem slots_append (m : Mem) (i n k : Nat) :
    slots m i (n + k) = slots m i n ++ slots m (i + n) k := by
  have hrange : List.range' i n ++ List.range' (i + 1 * n) k = List.range' i (n + k) :=
    List.range'_append
  rw [Nat.one_mul] at hrange
  rw [slots, slots, slots, ← List.filter_append, ← List.map_append, hrange]

theorem length_slots_le (m : Mem) (i n : Nat) : (slots m i n).length ≤ n := by
  have hfilter := List.length_filter_le recValid
    ((List.range' i n).map fun j => decodeRec m (16 * j))
  rwa [List.length_map, List.length_range'] at hfilter

/-- Below the append point `readAt` finds what was there before. -/
theorem readFrom_extends {size : Nat} {s s' : Log Nor} (h : Log.Extends s s')
    (hoff : s.writeOff ≤ size) (n i : Nat) (hused : i + n ≤ s.writeOff / REC_BYTES) :
    s'.readFrom (norDriver size) n i = slots s.flash.mem i n := by
  have hgrows := h.grows
  rw [REC_BYTES] at hused
  induction n generalizing i with
  | zero => rfl
  | succ n ih =>
    have hlow : i < s'.writeOff / REC_BYTES := by
      rw [REC_BYTES]
      omega
    have hread : (norDriver size).read s'.flash (i * REC_BYTES) =
        some (decodeRec s.flash.mem (16 * i)) := by
      rw [← decodeRec_congr fun j hj => h.kept (16 * i + j) (by omega), Nat.mul_comm]
      change (if 16 * i + 16 ≤ size then _ else _) = _
      exact if_pos (by omega)
    rw [Log.readFrom, if_pos hlow, hread, slots, List.range'_succ, List.map_cons, List.filter_cons]
    dsimp only
    rw [ih (i + 1) (by omega), slots]

end evlog

/-! ### The reply -/

open evlog ProtoEncode

def EVLOG_REPLY_MAX : Nat := 100

/-- The log, and what the other tasks do before each look at it. -/
structure Served (F : Type) where
  log : Log Nor
  schedule : List (List (TaskAct F))

section Reply

variable {F : Type} [CFloat F] (P : Partition)

def Served.interfere (x : Served F) : Served F where
  log := x.log.acts P (x.schedule.headD [])
  schedule := x.schedule.tail

/-- `readAt`, which waits for the mutex. -/
def Served.readAt (idx cap : Nat) (x : Served F) : List Rec × Served F :=
  let x := x.interfere P
  (x.log.readAt (norDriver P.size) idx cap, x)

/-- A `uint32` member, which is left out when it is zero. -/
def encUint {σ : Type} (field : Nat) (v : UInt32) : Encoder σ :=
  if v = 0 then nothing else andThen (encodeTag field 0) (encodeVarint v.toNat)

/-- The fields of `EvlogEntry`, by number. -/
def encEvlogEntry {σ : Type} (r : Rec) : Encoder σ :=
  all
    [encUint 1 r.tMs, encUint 2 (r.head &&& 0xFFFF), encUint 3 (r.head >>> 16 &&& 0xFF),
      encUint 4 r.data]

/-- The loop of `encEvlog` from `done` on. -/
def evlogTurns (first count : Nat) : Nat → Nat → Encoder (Served F)
  | 0, _ => nothing
  | fuel + 1, done =>
    if done < count then
      let want := if count - done < 16 then count - done else 16
      reading (Served.readAt P (first + done) want) fun got =>
        andThen
          (all (got.map fun r => andThen (encodeTag 1 2) (submessage (encEvlogEntry r))))
          (evlogTurns first count fuel (done + want))
    else nothing

/-- `encEvlog`.  Every turn takes at least one slot. -/
def encEvlog (first count : Nat) : Encoder (Served F) := evlogTurns P first count count 0

/-- `buildEvlogPb`.  `stats` looks at the ring before it has the mutex. -/
def buildEvlogPb (x : Served F) : Option (List UInt8) :=
  let pending := x.log.head - x.log.tail
  let x := x.interfere P
  let total := x.log.stats.1
  let count := if total < EVLOG_REPLY_MAX then total else EVLOG_REPLY_MAX
  let first := total - count
  encodeMsg 10
    (andThen (encEvlog P first count)
      (andThen (encUint 2 (UInt32.ofNat total)) (encUint 3 pending))) x

/-! ### What it lists -/

def uintBytes (field : Nat) (v : UInt32) : List UInt8 :=
  if v = 0 then [] else Varint.encode (8 * field + 0) ++ Varint.encode v.toNat

def messageBytes (field : Nat) (body : List UInt8) : List UInt8 :=
  Varint.encode (8 * field + 2) ++ (Varint.encode body.length ++ body)

def entryBytes (r : Rec) : List UInt8 :=
  uintBytes 1 r.tMs ++ (uintBytes 2 (r.head &&& 0xFFFF) ++
    (uintBytes 3 (r.head >>> 16 &&& 0xFF) ++ (uintBytes 4 r.data ++ [])))

def listBytes (recs : List Rec) : List UInt8 :=
  recs.flatMap fun r => messageBytes 1 (entryBytes r)

/-- The message that lists these records. -/
def evlogBytes (recs : List Rec) (total pending : UInt32) : List UInt8 :=
  messageBytes 10 (listBytes recs ++ (uintBytes 2 total ++ uintBytes 3 pending))

/-- The valid records of the last slots, a hundred at most. -/
def evlogWindow (s : Log Nor) : List Rec :=
  slots s.flash.mem (s.stats.1 - min s.stats.1 EVLOG_REPLY_MAX) (min s.stats.1 EVLOG_REPLY_MAX)

/-! ### What the encoders write -/

section Writes

variable {σ : Type} {I : σ → Prop}

theorem writes_uint (I : σ → Prop) (field : Nat) (v : UInt32) :
    Writes I (encUint field v) (uintBytes field v) := by
  unfold encUint uintBytes
  split_ifs
  · exact writes_nothing I
  · exact writes_andThen (writes_varint I _) (writes_varint I _)

theorem writes_entry (I : σ → Prop) (r : Rec) : Writes I (encEvlogEntry r) (entryBytes r) := by
  refine writes_andThen (writes_uint I _ _) ?_
  refine writes_andThen (writes_uint I _ _) ?_
  refine writes_andThen (writes_uint I _ _) ?_
  exact writes_andThen (writes_uint I _ _) (writes_nothing I)

theorem writes_message {e : Encoder σ} {body : List UInt8} (h : Writes I e body) (field : Nat) :
    Writes I (andThen (encodeTag field 2) (submessage e)) (messageBytes field body) :=
  writes_andThen (writes_varint I _) (writes_submessage h)

end Writes

/-- The log has only been appended to, and will only be. -/
structure Appended (s : Log Nor) (x : Served F) : Prop where
  extended : Log.Extends s x.log
  calm : x.log.actsRestart P x.schedule.flatten = false

variable {P} {s : Log Nor}

theorem Appended.interfere {x : Served F} (h : Appended P s x) :
    Appended P s (x.interfere P) := by
  obtain ⟨log, schedule⟩ := x
  obtain ⟨hext, hcalm⟩ := h
  cases schedule with
  | nil => exact ⟨hext, hcalm⟩
  | cons l schedule =>
    rw [List.flatten_cons, Log.actsRestart_append] at hcalm
    obtain ⟨hfirst, hrest⟩ := Bool.or_eq_false_iff.mp hcalm
    exact ⟨hext.trans (Log.acts_extends hfirst), hrest⟩

theorem Appended.readAt {x : Served F} (h : Appended P s x) (hfits : s.Fits P.size) {idx cap : Nat}
    (hused : idx + cap ≤ s.stats.1) :
    (x.readAt P idx cap).1 = slots s.flash.mem idx cap ∧ Appended P s (x.readAt P idx cap).2 := by
  have hnext := h.interfere
  refine ⟨?_, hnext⟩
  rw [Log.stats] at hused
  rw [Served.readAt, Log.readAt, hnext.extended.part]
  rcases hfits with hnone | ⟨hpart, hoff⟩
  · rw [hnone, if_pos rfl] at hused
    rw [if_pos hnone]
    obtain rfl : cap = 0 := by omega
    rfl
  · rw [hpart, if_neg (by simp)] at hused
    rw [hpart, if_neg (by simp)]
    exact readFrom_extends hnext.extended hoff cap idx hused

/-- The turns of the loop write the slots that are left. -/
theorem writes_turns (hfits : s.Fits P.size) {first count : Nat} (hused : first + count ≤ s.stats.1)
    (fuel done : Nat) (hfuel : count ≤ done + fuel) (hdone : done ≤ count) :
    Writes (Appended (F := F) P s) (evlogTurns P first count fuel done)
      (listBytes (slots s.flash.mem (first + done) (count - done))) := by
  induction fuel generalizing done with
  | zero =>
    obtain rfl : done = count := by omega
    rw [Nat.sub_self]
    exact writes_nothing _
  | succ fuel ih =>
    rw [evlogTurns]
    by_cases hmore : done < count
    · rw [if_pos hmore]
      dsimp only
      generalize hwant : (if count - done < 16 then count - done else 16) = want
      have hturn : 0 < want ∧ done + want ≤ count := by
        split_ifs at hwant <;> omega
      refine writes_reading fun x hx => ?_
      obtain ⟨hread, hnext⟩ := hx.readAt hfits (by omega : first + done + want ≤ s.stats.1)
      refine ⟨hnext, ?_⟩
      have hsplit : count - done = want + (count - (done + want)) := by omega
      rw [hread, hsplit, slots_append, listBytes, List.flatMap_append, Nat.add_assoc]
      refine writes_andThen (writes_all fun r _ => ?_) (ih (done + want) (by omega) (by omega))
      exact writes_message (writes_entry _ r) 1
    · obtain rfl : done = count := by omega
      rw [if_neg hmore, Nat.sub_self]
      exact writes_nothing _

theorem writes_encEvlog (hfits : s.Fits P.size) {first count : Nat}
    (hused : first + count ≤ s.stats.1) :
    Writes (Appended (F := F) P s) (encEvlog P first count)
      (listBytes (slots s.flash.mem first count)) :=
  writes_turns hfits hused count 0 (by omega) (by omega)

/-! ### The reply fits the arena -/

theorem length_uintBytes_le {field : Nat} (hfield : field < 16) (v : UInt32) :
    (uintBytes field v).length ≤ 6 := by
  have hv := v.toNat_lt
  have htag := Varint.length_encode (n := 8 * field + 0) (by omega)
  have hvalue := Varint.length_encode (n := v.toNat) (by omega)
  have hsize : varintSize v.toNat ≤ 5 := varintSize_le (by omega) (by omega)
  rw [varintSize] at hsize
  rw [Nat.log_of_lt (by omega)] at htag
  rw [uintBytes]
  split_ifs
  · exact Nat.zero_le _
  · rw [List.length_append, htag, hvalue]
    omega

theorem length_entryBytes_le (r : Rec) : (entryBytes r).length ≤ 24 := by
  have htMs := length_uintBytes_le (by omega : 1 < 16) r.tMs
  have hboot := length_uintBytes_le (by omega : 2 < 16) (r.head &&& 0xFFFF)
  have hcode := length_uintBytes_le (by omega : 3 < 16) (r.head >>> 16 &&& 0xFF)
  have hdata := length_uintBytes_le (by omega : 4 < 16) r.data
  simp only [entryBytes, List.length_append, List.length_nil]
  omega

theorem length_messageBytes_le {field n : Nat} (hfield : field < 15) {body : List UInt8}
    (h : body.length ≤ n) (hn : n < 16384) : (messageBytes field body).length ≤ n + 3 := by
  have htag := Varint.length_encode (n := 8 * field + 2) (by omega)
  have hlength := Varint.length_encode (n := body.length) (by omega)
  have hsize : varintSize body.length ≤ 2 := varintSize_le (by omega) (by omega)
  rw [varintSize] at hsize
  rw [Nat.log_of_lt (by omega)] at htag
  rw [messageBytes, List.length_append, List.length_append, htag, hlength]
  omega

theorem length_listBytes_le (recs : List Rec) : (listBytes recs).length ≤ 27 * recs.length := by
  induction recs with
  | nil => exact Nat.zero_le _
  | cons r recs ih =>
    have hentry := length_messageBytes_le (by omega : 1 < 15) (length_entryBytes_le r) (by omega)
    rw [listBytes, List.flatMap_cons, List.length_append, List.length_cons, ← listBytes]
    omega

theorem length_evlogBytes_le {recs : List Rec} (h : recs.length ≤ EVLOG_REPLY_MAX)
    (total pending : UInt32) : (evlogBytes recs total pending).length ≤ hw.PB_REPLY_CAP := by
  have hlist := length_listBytes_le recs
  have htotal := length_uintBytes_le (by omega : 2 < 16) total
  have hpending := length_uintBytes_le (by omega : 3 < 16) pending
  rw [EVLOG_REPLY_MAX] at h
  have hbody : (listBytes recs ++ (uintBytes 2 total ++ uintBytes 3 pending)).length ≤ 2712 := by
    rw [List.length_append, List.length_append]
    omega
  exact (length_messageBytes_le (by omega) hbody (by omega)).trans (by decide)

/-! ### The reply is the window -/

/-- `buildEvlogPb` from any state of the log, when the drains only append. -/
theorem buildEvlogPb_eq {x : Served F} (hfits : x.log.Fits P.size)
    (hcalm : (x.interfere P).log.actsRestart P (x.interfere P).schedule.flatten = false) :
    buildEvlogPb P x =
      some (evlogBytes (evlogWindow (x.interfere P).log)
        (UInt32.ofNat (x.interfere P).log.stats.1) (x.log.head - x.log.tail)) := by
  have hcount : ∀ total, (if total < EVLOG_REPLY_MAX then total else EVLOG_REPLY_MAX) =
      min total EVLOG_REPLY_MAX := by
    intro total
    split_ifs <;> omega
  have hfits' : (x.interfere P).log.Fits P.size := Log.acts_fits hfits _
  rw [buildEvlogPb, hcount]
  generalize x.interfere P = y at hcalm hfits'
  have hused : y.log.stats.1 - min y.log.stats.1 EVLOG_REPLY_MAX +
      min y.log.stats.1 EVLOG_REPLY_MAX ≤ y.log.stats.1 := by omega
  have hlist := writes_encEvlog (F := F) hfits' hused
  have hbody := writes_andThen hlist
    (writes_andThen (writes_uint _ 2 (UInt32.ofNat y.log.stats.1))
      (writes_uint _ 3 (x.log.head - x.log.tail)))
  have hmessage := (writes_message hbody 10).buffer hw.PB_REPLY_CAP (x := y) ⟨.refl _, hcalm⟩
  have hwindow : (evlogWindow y.log).length ≤ EVLOG_REPLY_MAX :=
    (length_slots_le _ _ _).trans (Nat.min_le_right _ _)
  have hroom := length_evlogBytes_le hwindow
    (UInt32.ofNat y.log.stats.1) (x.log.head - x.log.tail)
  exact hmessage.trans (if_pos hroom)

/-- After any history on any flash, with what the other tasks do while the reply is built:
before `stats` has the mutex, and before each bite. -/
def Served.after (P : Partition) (flash : Nor) (past : List (FlashEvent F))
    (schedule : List (List (TaskAct F))) : Served F where
  log := past.foldl (Log.event P) (Log.boot flash)
  schedule := schedule

/-- **The event-log reply is a consistent window**, in every run in which no drain behind
`stats` finds the partition full: the valid records of the last slots as `stats` found
them, in order. -/
theorem evlog_reply_window (P : Partition) (flash : Nor) (past : List (FlashEvent F))
    (schedule : List (List (TaskAct F)))
    (hcalm : ((Served.after P flash past schedule).interfere P).log.actsRestart P
      schedule.tail.flatten = false) :
    buildEvlogPb P (Served.after P flash past schedule) =
      some (evlogBytes (evlogWindow ((Served.after P flash past schedule).interfere P).log)
        (UInt32.ofNat ((Served.after P flash past schedule).interfere P).log.stats.1)
        ((Served.after P flash past schedule).log.head -
          (Served.after P flash past schedule).log.tail)) :=
  buildEvlogPb_eq (events_fits P (Or.inl rfl) past) hcalm

end Reply

/-! ### A full partition -/

def oneSector : Partition where
  size := 4096
  aligned := by decide
  pos := by decide

/-- The first slots hold a record each, the rest is blank. -/
def filledFlash (n : Nat) : Nor where
  __ := Nor.fresh
  mem a := if a < 16 * n then (encodeRec (mkRec Ev.arm.code 1 0 0)).getD (a % 16) 0xFF else 0xFF

/-- The kart boots, an event waits, and the LED task drains it before the first bite. -/
def drainedReply (n : Nat) : Served Float32 :=
  Served.after oneSector (filledFlash n) [.boot [] 1000 1, .push .arm 0 2000000]
    [[], [.maintain [] .initial false]]

/-- With a slot left behind the boot record the reply lists 100 records. -/
theorem evlog_reply_window_room :
    (evlogWindow ((drainedReply 254).interfere oneSector).log).length = 100 ∧
      buildEvlogPb oneSector (drainedReply 254) =
        some (evlogBytes (evlogWindow ((drainedReply 254).interfere oneSector).log)
          (UInt32.ofNat ((drainedReply 254).interfere oneSector).log.stats.1)
          ((drainedReply 254).log.head - (drainedReply 254).log.tail)) :=
  ⟨by decide +kernel, evlog_reply_window oneSector _ _ _ (by decide +kernel)⟩

/-- The boot record takes the last slot, the drain restarts the journal, and the reply
lists nothing. -/
theorem evlog_reply_lost :
    (evlogWindow ((drainedReply 255).interfere oneSector).log).length = 100 ∧
      buildEvlogPb oneSector (drainedReply 255) = some (evlogBytes [] 256 1) ∧
      buildEvlogPb oneSector (drainedReply 255) ≠
        some (evlogBytes (evlogWindow ((drainedReply 255).interfere oneSector).log)
          (UInt32.ofNat ((drainedReply 255).interfere oneSector).log.stats.1)
          ((drainedReply 255).log.head - (drainedReply 255).log.tail)) := by
  decide +kernel

end KartFirmware

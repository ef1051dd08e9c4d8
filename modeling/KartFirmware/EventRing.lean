import KartFirmware.EvLog
import KartFirmware.RingIndex

/-!
# The event ring, step by step

`evlog::push`, on the control task, and `drainLocked`, on the task that holds the mutex,
as they interleave: each load and store of `m_head` and `m_tail`, each access to a field
of a slot and each `flashAppend` is one step, on a sequentially consistent memory.  The
flash writes of the drain are taken to succeed.

The state carries two history variables, which no step reads: the events accepted so far
and how many of them the consumer has released.  The indices are these counts modulo
`2^32`, and every accepted event that is not released is in its slot (`evlog.RingInv`).
So what is appended to the flash is what was accepted, in order (`evlog.event_ring`).
-/

set_option linter.unusedSectionVars false

namespace KartFirmware

namespace evlog

open RingIndex

/-! ### Records of events -/

/-- What a record says: code, time, data. -/
def Rec.event (r : Rec) : PendingRec where
  code := (r.head >>> 16).toUInt8
  tMs := r.tMs
  data := r.data

def PendingRec.record (boot : UInt16) (p : PendingRec) : Rec := mkRec p.code boot p.tMs p.data

@[simp] theorem event_record (boot : UInt16) (p : PendingRec) : (p.record boot).event = p := by
  obtain ⟨code, tMs, data⟩ := p
  rw [PendingRec.record, Rec.event, mkRec, recHead_code]

/-- The records written to the partition, oldest first. -/
def written (ops : List FlashOp) : List Rec :=
  ops.reverse.flatMap fun op =>
    match op with
    | .write _ recs => recs
    | .erase _ _ => []

theorem written_write (off : Nat) (recs : List Rec) (ops : List FlashOp) :
    written (.write off recs :: ops) = written ops ++ recs := by
  simp [written]

theorem written_erase (off size : Nat) (ops : List FlashOp) :
    written (.erase off size :: ops) = written ops := by
  simp [written]

/-! ### The two tasks -/

/-- Where `push` stands, with its arguments, the index it has loaded and the time it has
taken. -/
inductive PushPc where
  | idle
  | entered (ev : Ev) (data : UInt32)
  | loaded (ev : Ev) (data head : UInt32)
  | code (ev : Ev) (data head : UInt32)
  | time (ev : Ev) (data head : UInt32)
  | data (ev : Ev) (data head tMs : UInt32)
  | publish (p : PendingRec) (head : UInt32)

/-- Where `drainLocked` stands, with `tail`, `head`, the batch and the fields of the record
that it is filling in. -/
inductive DrainPc where
  | idle
  | top
  | tail (tail : UInt32)
  | loop (tail head : UInt32) (batch : List Rec)
  | time (tail head : UInt32) (batch : List Rec) (recHead : UInt32)
  | data (tail head : UInt32) (batch : List Rec) (recHead tMs : UInt32)
  | append (tail : UInt32) (batch : List Rec)
  | release (tail : UInt32) (n : Nat)

structure RingSystem (δ : Type) where
  log : Log δ
  push : PushPc
  drain : DrainPc
  accepted : List PendingRec
  released : Nat

inductive RingAct where
  | call (ev : Ev) (data : UInt32)
  | push (nowUs : Int)
  | drain

variable {δ : Type} (drv : FlashDriver δ)

def Log.setSlot (s : Log δ) (i : UInt32) (p : PendingRec) : Log δ :=
  { s with ring := Function.update s.ring (Log.slot i) p }

/-- The producer's next step. -/
def RingSystem.pushStep (s : RingSystem δ) (nowUs : Int) : RingSystem δ :=
  match s.push with
  | .idle => s
  | .entered ev data =>
    if s.log.part = none then { s with push := .idle }
    else { s with push := .loaded ev data s.log.head }
  | .loaded ev data head =>
    if (head - s.log.tail).toNat ≥ RING_N then { s with push := .idle }
    else { s with push := .code ev data head }
  | .code ev data head =>
    { s with
      log := s.log.setSlot head { s.log.ring (Log.slot head) with code := ev.code }
      push := .time ev data head }
  | .time ev data head =>
    let tMs := UInt32.ofInt (nowUs / 1000)
    { s with
      log := s.log.setSlot head { s.log.ring (Log.slot head) with tMs := tMs }
      push := .data ev data head tMs }
  | .data ev data head tMs =>
    { s with
      log := s.log.setSlot head { s.log.ring (Log.slot head) with data := data }
      push := .publish { code := ev.code, tMs := tMs, data := data } head }
  | .publish p head =>
    { s with
      log := { s.log with head := head + 1 }
      push := .idle
      accepted := s.accepted ++ [p] }

/-- The consumer's next step; an idle consumer calls `drainLocked`. -/
def RingSystem.drainStep (s : RingSystem δ) : RingSystem δ :=
  match s.drain with
  | .idle => { s with drain := .top }
  | .top => { s with drain := .tail s.log.tail }
  | .tail tail => { s with drain := .loop tail s.log.head [] }
  | .loop tail head batch =>
    if tail ≠ head ∧ batch.length < 16 then
      { s with
        drain := .time tail head batch
          (recHead (s.log.ring (Log.slot tail)).code s.log.bootSeq) }
    else if batch = [] then { s with drain := .idle }
    else { s with drain := .append tail batch }
  | .time tail head batch h =>
    { s with drain := .data tail head batch h (s.log.ring (Log.slot tail)).tMs }
  | .data tail head batch h tMs =>
    let data := (s.log.ring (Log.slot tail)).data
    { s with
      drain := .loop (tail + 1) head
        (batch ++ [{ head := h, tMs := tMs, data := data, chk := recChk h tMs data }]) }
  | .append tail batch =>
    { s with log := s.log.flashAppend drv batch, drain := .release tail batch.length }
  | .release tail n =>
    { s with log := { s.log with tail := tail }, drain := .top, released := s.released + n }

def RingSystem.step (s : RingSystem δ) : RingAct → RingSystem δ
  | .call ev data =>
    match s.push with
    | .idle => { s with push := .entered ev data }
    | _ => s
  | .push nowUs => s.pushStep nowUs
  | .drain => s.drainStep drv

/-- A log with a partition and an empty ring, and no call under way. -/
def RingSystem.start (log : Log δ) : RingSystem δ where
  log := { log with head := 0, tail := 0 }
  push := .idle
  drain := .idle
  accepted := []
  released := 0

def RingSystem.run (s : RingSystem δ) (acts : List RingAct) : RingSystem δ :=
  acts.foldl (RingSystem.step drv) s

/-! ### The invariant -/

section Invariant

variable (boot : UInt16) (l : List PendingRec) (n : Nat)

/-- The batch holds the events from the count `n` on, up to `tail`. -/
structure Copied (tail : UInt32) (batch : List Rec) : Prop where
  tail_eq : tail = UInt32.ofNat (n + batch.length)
  le : n + batch.length ≤ l.length
  batch_eq : batch = ((l.drop n).take batch.length).map (PendingRec.record boot)

/-- A copy under way: `head` was loaded when `h` events had been accepted. -/
structure Copying (tail head : UInt32) (batch : List Rec) (h : Nat) : Prop
    extends Copied boot l n tail batch where
  head_eq : head = UInt32.ofNat h
  upTo : n + batch.length ≤ h
  known : h ≤ l.length

/-- One more event is being copied. -/
structure CopyingNext (tail head : UInt32) (batch : List Rec) (p : PendingRec) : Prop where
  copying : ∃ h, Copying boot l n tail head batch h ∧ n + batch.length < h
  next : l[n + batch.length]? = some p

/-- What the consumer knows where it stands. -/
def DrainInv (logTail : UInt32) : DrainPc → Prop
  | .idle => True
  | .top => True
  | .tail tail => tail = logTail
  | .loop tail head batch => ∃ h, Copying boot l n tail head batch h
  | .time tail head batch h =>
    ∃ p, CopyingNext boot l n tail head batch p ∧ h = recHead p.code boot
  | .data tail head batch h tMs =>
    ∃ p, CopyingNext boot l n tail head batch p ∧ h = recHead p.code boot ∧ tMs = p.tMs
  | .append tail batch => Copied boot l n tail batch
  | .release tail k => tail = UInt32.ofNat (n + k) ∧ n + k ≤ l.length

/-- What the producer knows where it stands: once past the check, that there is room, and
what it has written to the slot. -/
def PushInv (ring : Nat → PendingRec) (logHead : UInt32) : PushPc → Prop
  | .idle => True
  | .entered _ _ => True
  | .loaded _ _ head => head = logHead
  | .code _ _ head => head = logHead ∧ l.length < n + RING_N
  | .time ev _ head => head = logHead ∧ l.length < n + RING_N ∧
    (ring (Log.slot head)).code = ev.code
  | .data ev _ head tMs => head = logHead ∧ l.length < n + RING_N ∧
    (ring (Log.slot head)).code = ev.code ∧ (ring (Log.slot head)).tMs = tMs
  | .publish p head => head = logHead ∧ l.length < n + RING_N ∧ ring (Log.slot head) = p

end Invariant

/-- How many events have been appended, with `n` released. -/
def DrainPc.appended (n : Nat) : DrainPc → Nat
  | .release _ k => n + k
  | _ => n

/-- The indices are the counts, the unreleased events are in their slots, and what was
written since the log held `base` is what was accepted. -/
structure RingInv (base : List Rec) (s : RingSystem δ) : Prop where
  part : s.log.part ≠ none
  head : s.log.head = UInt32.ofNat s.accepted.length
  tail : s.log.tail = UInt32.ofNat s.released
  order : s.released ≤ s.accepted.length
  room : s.accepted.length ≤ s.released + RING_N
  holds : Holds RING_N s.log.ring s.accepted s.released
  push : PushInv s.accepted s.released s.log.ring s.log.head s.push
  drain : DrainInv s.log.bootSeq s.accepted s.released s.log.tail s.drain
  written : written s.log.ops =
    base ++ (s.accepted.take (s.drain.appended s.released)).map (PendingRec.record s.log.bootSeq)

variable {base : List Rec} {s : RingSystem δ}

theorem slot_count (n : Nat) : Log.slot (UInt32.ofNat n) = n % RING_N := slot_ofNat (by decide) n

/-- The indices of counts that are no more than the ring apart. -/
theorem toNat_sub_of_room {total n : Nat} (horder : n ≤ total) (hroom : total ≤ n + RING_N) :
    (UInt32.ofNat total - UInt32.ofNat n).toNat = total - n := by
  simp only [RING_N] at hroom
  exact toNat_sub_ofNat horder (by omega)

/-- The difference of the indices is the number of unreleased events. -/
theorem RingInv.count (h : RingInv base s) :
    (s.log.head - s.log.tail).toNat = s.accepted.length - s.released := by
  rw [h.head, h.tail, toNat_sub_of_room h.order h.room]

theorem le_appended (pc : DrainPc) (n : Nat) : n ≤ pc.appended n := by
  cases pc <;> simp [DrainPc.appended]

/-! ### The producer -/

/-- A producer's step that leaves the log and the history alone. -/
theorem RingInv.movePush (h : RingInv base s) {pc : PushPc}
    (hpc : PushInv s.accepted s.released s.log.ring s.log.head pc) :
    RingInv base { s with push := pc } :=
  ⟨h.part, h.head, h.tail, h.order, h.room, h.holds, hpc, h.drain, h.written⟩

/-- Writing the free slot. -/
theorem RingInv.setSlot (h : RingInv base s) (hroom : s.accepted.length < s.released + RING_N)
    (p : PendingRec) {pc : PushPc}
    (hpc : PushInv s.accepted s.released (s.log.setSlot s.log.head p).ring s.log.head pc) :
    RingInv base { s with log := s.log.setSlot s.log.head p, push := pc } := by
  refine ⟨h.part, h.head, h.tail, h.order, h.room, ?_, hpc, h.drain, h.written⟩
  change Holds RING_N (Function.update s.log.ring (Log.slot s.log.head) p) s.accepted s.released
  rw [h.head, slot_count]
  exact h.holds.update hroom p

/-- The slot that is written holds what was written. -/
theorem setSlot_ring (s : Log δ) (i : UInt32) (p : PendingRec) :
    (s.setSlot i p).ring (Log.slot i) = p := Function.update_self ..

theorem Copied.push {boot : UInt16} {l : List PendingRec} {n : Nat} {tail : UInt32}
    {batch : List Rec} (h : Copied boot l n tail batch) (p : PendingRec) :
    Copied boot (l ++ [p]) n tail batch := by
  have hle := h.le
  refine ⟨h.tail_eq, by rw [List.length_append]; omega, ?_⟩
  rw [List.drop_append_of_le_length (by omega), List.take_append_of_le_length]
  · exact h.batch_eq
  · rw [List.length_drop]
    omega

theorem Copying.push {boot : UInt16} {l : List PendingRec} {n h : Nat} {tail head : UInt32}
    {batch : List Rec} (hc : Copying boot l n tail head batch h) (p : PendingRec) :
    Copying boot (l ++ [p]) n tail head batch h := by
  have hknown := hc.known
  refine ⟨hc.toCopied.push p, hc.head_eq, hc.upTo, ?_⟩
  rw [List.length_append]
  omega

theorem CopyingNext.push {boot : UInt16} {l : List PendingRec} {n : Nat} {tail head : UInt32}
    {batch : List Rec} {q : PendingRec} (hc : CopyingNext boot l n tail head batch q)
    (p : PendingRec) : CopyingNext boot (l ++ [p]) n tail head batch q := by
  obtain ⟨⟨h, hcopying, hlt⟩, hnext⟩ := hc
  refine ⟨⟨h, hcopying.push p, hlt⟩, ?_⟩
  rw [List.getElem?_append_left (List.getElem?_eq_some_iff.mp hnext).1]
  exact hnext

/-- A new event does not disturb a copy. -/
theorem DrainInv.push {boot : UInt16} {l : List PendingRec} {n : Nat} {logTail : UInt32}
    {pc : DrainPc} (h : DrainInv boot l n logTail pc) (p : PendingRec) :
    DrainInv boot (l ++ [p]) n logTail pc := by
  cases pc with
  | idle => trivial
  | top => trivial
  | tail tail => exact h
  | loop tail head batch =>
    obtain ⟨k, hcopying⟩ := h
    exact ⟨k, hcopying.push p⟩
  | time tail head batch r =>
    obtain ⟨q, hnext, hr⟩ := h
    exact ⟨q, hnext.push p, hr⟩
  | data tail head batch r tMs =>
    obtain ⟨q, hnext, hr⟩ := h
    exact ⟨q, hnext.push p, hr⟩
  | append tail batch => exact Copied.push h p
  | release tail k =>
    refine ⟨h.1, ?_⟩
    rw [List.length_append]
    exact Nat.le_add_right_of_le h.2

theorem appended_le {base : List Rec} {s : RingSystem δ} (h : RingInv base s) :
    s.drain.appended s.released ≤ s.accepted.length := by
  have hdrain := h.drain
  cases hpc : s.drain with
  | release tail k =>
    rw [hpc] at hdrain
    exact hdrain.2
  | _ => exact h.order

/-- The head is stored: the event in the slot is accepted. -/
theorem RingInv.publish (h : RingInv base s) (hroom : s.accepted.length < s.released + RING_N)
    {p : PendingRec} (hp : s.log.ring (Log.slot s.log.head) = p) :
    RingInv base
      { s with
        log := { s.log with head := s.log.head + 1 }
        push := .idle
        accepted := s.accepted ++ [p] } := by
  rw [h.head, slot_count] at hp
  refine ⟨h.part, ?_, h.tail, ?_, ?_, h.holds.push hp, trivial, h.drain.push p, ?_⟩
  · change s.log.head + 1 = _
    rw [h.head, ofNat_succ, List.length_append, List.length_singleton]
  · have horder := h.order
    simp only [List.length_append, List.length_singleton]
    omega
  · simp only [List.length_append, List.length_singleton]
    omega
  · have hwritten := h.written
    rw [← List.take_append_of_le_length (appended_le h)] at hwritten
    exact hwritten

theorem RingInv.pushStep (h : RingInv base s) (nowUs : Int) : RingInv base (s.pushStep nowUs) := by
  have hpush := h.push
  unfold RingSystem.pushStep
  cases hpc : s.push with
  | idle => exact h
  | entered ev data =>
    dsimp only
    split_ifs
    · exact h.movePush trivial
    · exact h.movePush rfl
  | loaded ev data head =>
    rw [hpc] at hpush
    obtain rfl : head = s.log.head := hpush
    dsimp only
    split_ifs with hfull
    · exact h.movePush trivial
    · refine h.movePush ⟨rfl, ?_⟩
      rw [h.count] at hfull
      omega
  | code ev data head =>
    rw [hpc] at hpush
    obtain ⟨rfl, hroom⟩ := hpush
    exact h.setSlot hroom _ ⟨rfl, hroom, congrArg PendingRec.code (setSlot_ring ..)⟩
  | time ev data head =>
    rw [hpc] at hpush
    obtain ⟨rfl, hroom, hcode⟩ := hpush
    refine h.setSlot hroom _ ⟨rfl, hroom, ?_, congrArg PendingRec.tMs (setSlot_ring ..)⟩
    exact (congrArg PendingRec.code (setSlot_ring ..)).trans hcode
  | data ev data head tMs =>
    rw [hpc] at hpush
    obtain ⟨rfl, hroom, hcode, htime⟩ := hpush
    refine h.setSlot hroom _ ⟨rfl, hroom, ?_⟩
    rw [setSlot_ring, ← hcode, ← htime]
  | publish p head =>
    rw [hpc] at hpush
    obtain ⟨rfl, hroom, hp⟩ := hpush
    exact h.publish hroom hp

/-! ### The consumer -/

/-- Releasing events leaves the producer more room. -/
theorem PushInv.release {l : List PendingRec} {n k : Nat} {ring : Nat → PendingRec}
    {logHead : UInt32} {pc : PushPc} (h : PushInv l n ring logHead pc) :
    PushInv l (n + k) ring logHead pc := by
  have hmore : l.length < n + RING_N → l.length < n + k + RING_N := by omega
  cases pc with
  | idle => trivial
  | entered ev data => trivial
  | loaded ev data head => exact h
  | code ev data head => exact h.imp_right hmore
  | time ev data head => exact h.imp_right (And.imp_left hmore)
  | data ev data head tMs => exact h.imp_right (And.imp_left hmore)
  | publish p head => exact h.imp_right (And.imp_left hmore)

/-- A consumer's step that appends and releases nothing. -/
theorem RingInv.moveDrain (h : RingInv base s) {pc : DrainPc}
    (hpc : DrainInv s.log.bootSeq s.accepted s.released s.log.tail pc)
    (happended : pc.appended s.released = s.drain.appended s.released) :
    RingInv base { s with drain := pc } := by
  refine ⟨h.part, h.head, h.tail, h.order, h.room, h.holds, h.push, hpc, ?_⟩
  rw [happended]
  exact h.written

/-- An empty batch is a copy that begins. -/
theorem Copying.begin (h : RingInv base s) :
    Copying s.log.bootSeq s.accepted s.released s.log.tail s.log.head [] s.accepted.length :=
  ⟨⟨h.tail, h.order, rfl⟩, h.head, h.order, le_refl _⟩

/-- While `tail` and `head` differ there is an event to copy, and it is in its slot. -/
theorem Copying.next {s : RingSystem δ} {tail head : UInt32} {batch : List Rec} {k : Nat}
    (hc : Copying s.log.bootSeq s.accepted s.released tail head batch k) (hne : tail ≠ head) :
    ∃ p, CopyingNext s.log.bootSeq s.accepted s.released tail head batch p := by
  have hlt : s.released + batch.length < k := by
    refine lt_of_le_of_ne hc.upTo fun heq => hne ?_
    rw [hc.tail_eq, hc.head_eq, heq]
  have hknown := hc.known
  exact ⟨_, ⟨k, hc, hlt⟩, List.getElem?_eq_getElem (by omega)⟩

theorem CopyingNext.slot (h : RingInv base s) {tail head : UInt32} {batch : List Rec}
    {p : PendingRec} (hc : CopyingNext s.log.bootSeq s.accepted s.released tail head batch p) :
    s.log.ring (Log.slot tail) = p := by
  obtain ⟨⟨k, hcopying, -⟩, hnext⟩ := hc
  rw [hcopying.tail_eq, slot_count]
  exact h.holds _ (Nat.le_add_right _ _) p hnext

/-- The record is complete: one more event has been copied. -/
theorem CopyingNext.copied {boot : UInt16} {l : List PendingRec} {n : Nat} {tail head : UInt32}
    {batch : List Rec} {p : PendingRec} (hc : CopyingNext boot l n tail head batch p) :
    ∃ h, Copying boot l n (tail + 1) head (batch ++ [p.record boot]) h := by
  obtain ⟨⟨h, hcopying, hlt⟩, hnext⟩ := hc
  have hlen : (batch ++ [p.record boot]).length = batch.length + 1 := by simp
  have hknown := hcopying.known
  refine ⟨h, ⟨⟨?_, by omega, ?_⟩, hcopying.head_eq, by omega, hknown⟩⟩
  · rw [hcopying.tail_eq, ofNat_succ, hlen, Nat.add_assoc]
  · have hget : (l.drop n)[batch.length]? = some p := by
      rw [List.getElem?_drop]
      exact hnext
    rw [hlen, List.take_add_one, hget, List.map_append, ← hcopying.batch_eq]
    rfl

theorem flashAppend_written (hok : ∀ f off recs, (drv.write f off recs).1 = true)
    (hok' : ∀ f off size, (drv.erase f off size).1 = true) {s : Log δ} (hpart : s.part ≠ none)
    (recs : List Rec) :
    evlog.written (s.flashAppend drv recs).ops = evlog.written s.ops ++ recs := by
  obtain ⟨size, hsize⟩ := Option.ne_none_iff_exists'.mp hpart
  simp only [Log.flashAppend, Log.appendAt, Log.partitionWrite, Log.partitionErase, hsize, hok,
    hok', if_true]
  split_ifs with hempty hfull
  · rw [hempty, List.append_nil]
  · rw [written_write, written_erase]
  · rw [written_write]

theorem RingInv.drainStep (h : RingInv base s)
    (happend : ∀ tail batch, s.drain = .append tail batch →
      evlog.written (s.log.flashAppend drv batch).ops = evlog.written s.log.ops ++ batch) :
    RingInv base (s.drainStep drv) := by
  have hdrain := h.drain
  unfold RingSystem.drainStep
  cases hpc : s.drain with
  | idle => exact h.moveDrain trivial (by rw [hpc]; rfl)
  | top => exact h.moveDrain rfl (by rw [hpc]; rfl)
  | tail tail =>
    rw [hpc] at hdrain
    obtain rfl : tail = s.log.tail := hdrain
    exact h.moveDrain ⟨_, Copying.begin h⟩ (by rw [hpc]; rfl)
  | loop tail head batch =>
    rw [hpc] at hdrain
    obtain ⟨k, hcopying⟩ := hdrain
    dsimp only
    split_ifs with hmore hempty
    · obtain ⟨p, hnext⟩ := hcopying.next hmore.1
      exact h.moveDrain ⟨p, hnext, by rw [hnext.slot h]⟩ (by rw [hpc]; rfl)
    · exact h.moveDrain trivial (by rw [hpc]; rfl)
    · exact h.moveDrain hcopying.toCopied (by rw [hpc]; rfl)
  | time tail head batch r =>
    rw [hpc] at hdrain
    obtain ⟨p, hnext, hr⟩ := hdrain
    exact h.moveDrain ⟨p, hnext, hr, by rw [hnext.slot h]⟩ (by rw [hpc]; rfl)
  | data tail head batch r tMs =>
    rw [hpc] at hdrain
    obtain ⟨p, hnext, rfl, rfl⟩ := hdrain
    dsimp only
    rw [hnext.slot h]
    exact h.moveDrain hnext.copied (by rw [hpc]; rfl)
  | append tail batch =>
    rw [hpc] at hdrain
    have hcopied : Copied s.log.bootSeq s.accepted s.released tail batch := hdrain
    obtain ⟨hring, hhead, htail, hboot, hpart⟩ := Log.flashAppend_sameRam drv s.log batch
    refine ⟨hpart ▸ h.part, hhead.trans h.head, htail.trans h.tail, h.order, h.room, ?_, ?_, ?_, ?_⟩
    · rw [hring]
      exact h.holds
    · rw [hring, hhead]
      exact h.push
    · exact ⟨hcopied.tail_eq, hcopied.le⟩
    · have hwritten := h.written
      rw [hpc] at hwritten
      change evlog.written (s.log.flashAppend drv batch).ops = base ++
        (s.accepted.take (s.released + batch.length)).map
          (PendingRec.record (s.log.flashAppend drv batch).bootSeq)
      rw [happend tail batch hpc, hwritten, hboot, List.take_add, List.map_append,
        ← hcopied.batch_eq, List.append_assoc]
      rfl
  | release tail k =>
    rw [hpc] at hdrain
    obtain ⟨htail, hle⟩ := hdrain
    have hroom := h.room
    have hwritten := h.written
    rw [hpc] at hwritten
    refine ⟨h.part, h.head, htail, hle, ?_, h.holds.mono (Nat.le_add_right _ _), h.push.release,
      trivial, hwritten⟩
    change s.accepted.length ≤ s.released + k + RING_N
    omega

/-! ### Runs -/

theorem RingInv.start (log : Log δ) (hpart : log.part ≠ none) :
    RingInv (evlog.written log.ops) (RingSystem.start log) := by
  refine ⟨hpart, rfl, rfl, le_refl _, Nat.zero_le _, ?_, trivial, trivial, ?_⟩
  · intro i _ p hp
    exact absurd hp (by simp [RingSystem.start])
  · exact (List.append_nil _).symm

theorem RingInv.run (hok : ∀ f off recs, (drv.write f off recs).1 = true)
    (hok' : ∀ f off size, (drv.erase f off size).1 = true) (h : RingInv base s)
    (acts : List RingAct) : RingInv base (s.run drv acts) := by
  induction acts generalizing s with
  | nil => exact h
  | cons act acts ih =>
    refine ih ?_
    cases act with
    | call ev data =>
      unfold RingSystem.step
      cases hpc : s.push with
      | idle => exact h.movePush trivial
      | _ => exact h
    | push nowUs => exact h.pushStep nowUs
    | drain =>
      refine h.drainStep drv fun _ batch _ => ?_
      exact flashAppend_written drv hok hok' h.part batch

/-- No step changes the boot number. -/
theorem step_bootSeq (s : RingSystem δ) (act : RingAct) :
    (s.step drv act).log.bootSeq = s.log.bootSeq := by
  cases act with
  | call ev data =>
    unfold RingSystem.step
    cases s.push <;> rfl
  | push nowUs =>
    simp only [RingSystem.step, RingSystem.pushStep]
    cases s.push with
    | entered ev data => dsimp only; split_ifs <;> rfl
    | loaded ev data head => dsimp only; split_ifs <;> rfl
    | _ => rfl
  | drain =>
    simp only [RingSystem.step, RingSystem.drainStep]
    cases s.drain with
    | append tail batch => exact (Log.flashAppend_sameRam drv s.log batch).bootSeq
    | loop tail head batch => dsimp only; split_ifs <;> rfl
    | _ => rfl

theorem run_bootSeq (s : RingSystem δ) (acts : List RingAct) :
    (s.run drv acts).log.bootSeq = s.log.bootSeq := by
  induction acts generalizing s with
  | nil => rfl
  | cons act acts ih => exact (ih (s.step drv act)).trans (step_bootSeq drv s act)

/-- The index whose slot the producer is about to write. -/
def PushPc.writes : PushPc → Option UInt32
  | .code _ _ head => some head
  | .time _ _ head => some head
  | .data _ _ head _ => some head
  | _ => none

theorem RingInv.writes_free (h : RingInv base s) {head : UInt32} (hw : s.push.writes = some head)
    {i : Nat} (hi : s.released ≤ i) (hil : i < s.accepted.length) : i % RING_N ≠ Log.slot head := by
  have hpush := h.push
  have hroom : head = s.log.head ∧ s.accepted.length < s.released + RING_N := by
    cases hpc : s.push with
    | code ev data head' =>
      rw [hpc] at hpush hw
      exact Option.some.inj hw ▸ hpush
    | time ev data head' =>
      rw [hpc] at hpush hw
      exact Option.some.inj hw ▸ ⟨hpush.1, hpush.2.1⟩
    | data ev data head' tMs =>
      rw [hpc] at hpush hw
      exact Option.some.inj hw ▸ ⟨hpush.1, hpush.2.1⟩
    | _ => simp [hpc, PushPc.writes] at hw
  rw [hroom.1, h.head, slot_count]
  exact slot_free hroom.2 hi hil

/-! ### Without interruption -/

/-- The steps of `push`, one after the other, are `Log.push`. -/
theorem push_alone {s : RingSystem δ} (hidle : s.push = .idle) (ev : Ev) (data : UInt32)
    (nowUs : Int) :
    s.run drv (.call ev data :: List.replicate 6 (.push nowUs)) =
      { s with
        log := s.log.push ev data nowUs
        push := .idle
        accepted :=
          if s.log.part = none ∨ s.log.pending ≥ RING_N then s.accepted
          else s.accepted ++ [⟨ev.code, UInt32.ofInt (nowUs / 1000), data⟩] } := by
  obtain ⟨log, push, drain, accepted, released⟩ := s
  obtain rfl : push = .idle := hidle
  by_cases hpart : log.part = none
  · simp [RingSystem.run, RingSystem.step, RingSystem.pushStep, Log.push, hpart]
  · by_cases hfull : log.pending ≥ RING_N
    · have hfull' : (log.head - log.tail).toNat ≥ RING_N := hfull
      simp [RingSystem.run, RingSystem.step, RingSystem.pushStep, Log.push, hpart, hfull, hfull']
    · have hfull' : ¬ (log.head - log.tail).toNat ≥ RING_N := hfull
      simp [RingSystem.run, RingSystem.step, RingSystem.pushStep, Log.push, hpart, hfull, hfull',
        Log.setSlot]

theorem run_append (s : RingSystem δ) (acts acts' : List RingAct) :
    s.run drv (acts ++ acts') = (s.run drv acts).run drv acts' := List.foldl_append ..

theorem run_drains (s : RingSystem δ) (j k : Nat) :
    s.run drv (List.replicate (j + k) .drain) =
      (s.run drv (List.replicate j .drain)).run drv (List.replicate k .drain) := by
  rw [List.replicate_add, run_append]

/-- The loop of a turn, alone, collects what `Log.collect` does. -/
theorem copy_alone {s : RingSystem δ} (m : Nat) {tail : UInt32} {batch : List Rec}
    (hlen : batch.length + m = 16) (hpc : s.drain = .loop tail s.log.head batch) :
    ∃ k, s.run drv (List.replicate k .drain) =
      { s with
        drain := if batch ++ (s.log.collect m tail).1 = [] then .idle
          else .append (s.log.collect m tail).2 (batch ++ (s.log.collect m tail).1) } := by
  induction m generalizing s tail batch with
  | zero =>
    refine ⟨1, ?_⟩
    have hstop : ¬ (tail ≠ s.log.head ∧ batch.length < 16) := by omega
    simp only [List.replicate_one, RingSystem.run, List.foldl_cons, List.foldl_nil,
      RingSystem.step, RingSystem.drainStep, hpc, if_neg hstop, Log.collect, List.append_nil]
    split_ifs <;> rfl
  | succ m ih =>
    by_cases hmore : tail = s.log.head
    · refine ⟨1, ?_⟩
      have hstop : ¬ (tail ≠ s.log.head ∧ batch.length < 16) := fun h => h.1 hmore
      simp only [List.replicate_one, RingSystem.run, List.foldl_cons, List.foldl_nil,
        RingSystem.step, RingSystem.drainStep, hpc, if_neg hstop, Log.collect, if_pos hmore,
        List.append_nil]
      split_ifs <;> rfl
    · have hgo : tail ≠ s.log.head ∧ batch.length < 16 := ⟨hmore, by omega⟩
      have hcopy : s.run drv (List.replicate 3 .drain) =
          { s with
            drain := .loop (tail + 1) s.log.head
              (batch ++ [(s.log.ring (Log.slot tail)).record s.log.bootSeq]) } := by
        simp only [List.replicate, RingSystem.run, List.foldl_cons, List.foldl_nil,
          RingSystem.step, RingSystem.drainStep, hpc, if_pos hgo]
        rfl
      obtain ⟨k, hk⟩ := ih
        (s := { s with
          drain := .loop (tail + 1) s.log.head
            (batch ++ [(s.log.ring (Log.slot tail)).record s.log.bootSeq]) })
        (by rw [List.length_append, List.length_singleton]; omega) rfl
      refine ⟨3 + k, ?_⟩
      rw [run_drains, hcopy, hk, Log.collect, if_neg hmore]
      simp only [List.append_assoc, List.singleton_append]
      rfl

/-- One turn of the drain, alone. -/
theorem turn_alone {s : RingSystem δ} (hpc : s.drain = .top) :
    ∃ k released, s.run drv (List.replicate k .drain) =
      if (s.log.collect 16 s.log.tail).1 = [] then { s with drain := .idle, released := released }
      else
        { s with
          log := { s.log.flashAppend drv (s.log.collect 16 s.log.tail).1 with
            tail := (s.log.collect 16 s.log.tail).2 }
          released := released } := by
  have hload : s.run drv (List.replicate 2 .drain) =
      { s with drain := .loop s.log.tail s.log.head [] } := by
    simp only [List.replicate, RingSystem.run, List.foldl_cons, List.foldl_nil, RingSystem.step,
      RingSystem.drainStep, hpc]
  obtain ⟨k, hk⟩ := copy_alone drv (s := { s with drain := .loop s.log.tail s.log.head [] }) 16
    (by rfl) rfl
  simp only [List.nil_append] at hk
  split_ifs with hempty
  · refine ⟨2 + k, s.released, ?_⟩
    rw [run_drains, hload, hk, if_pos hempty]
  · refine ⟨2 + (k + 2), s.released + (s.log.collect 16 s.log.tail).1.length, ?_⟩
    rw [run_drains, hload, run_drains, hk, if_neg hempty]
    simp only [List.replicate, RingSystem.run, List.foldl_cons, List.foldl_nil, RingSystem.step,
      RingSystem.drainStep, hpc]

/-- The steps of a drain, one after the other, are `Log.drainLocked`. -/
theorem drain_alone {s : RingSystem δ} (hpc : s.drain = .idle) :
    ∃ k released, s.run drv (List.replicate k .drain) =
      { s with log := s.log.drainLocked drv, drain := .idle, released := released } := by
  have hturns : ∀ fuel (s : RingSystem δ), s.log.pending ≤ fuel → s.drain = .top →
      ∃ k released, s.run drv (List.replicate k .drain) =
        { s with log := s.log.drainTurns drv fuel, drain := .idle, released := released } := by
    intro fuel
    induction fuel with
    | zero =>
      intro s hpending htop
      obtain ⟨k, released, hk⟩ := turn_alone drv htop
      have hlen := (Log.collect_spec s.log 16 s.log.tail).1
      have hempty : (s.log.collect 16 s.log.tail).1 = [] := by
        refine List.eq_nil_of_length_eq_zero ?_
        rw [hlen]
        exact Nat.le_zero.mp ((min_le_right _ _).trans hpending)
      rw [if_pos hempty] at hk
      exact ⟨k, released, hk⟩
    | succ fuel ih =>
      intro s hpending htop
      obtain ⟨k, released, hk⟩ := turn_alone drv htop
      obtain ⟨hlen, hrest⟩ := Log.collect_spec s.log 16 s.log.tail
      rw [Log.drainTurns]
      split_ifs at hk ⊢ with hempty
      · exact ⟨k, released, hk⟩
      · have hpos : (s.log.collect 16 s.log.tail).1.length ≠ 0 := by
          rwa [ne_eq, List.length_eq_zero_iff]
        have hhead := (Log.flashAppend_sameRam drv s.log (s.log.collect 16 s.log.tail).1).head
        obtain ⟨k', released', hk'⟩ := ih
          { s with
            log := { s.log.flashAppend drv (s.log.collect 16 s.log.tail).1 with
              tail := (s.log.collect 16 s.log.tail).2 }
            released := released }
          (by
            simp only [Log.pending, hhead] at hpending ⊢
            omega)
          htop
        exact ⟨k + k', released', by rw [run_drains, hk, hk']⟩
  obtain ⟨k, released, hk⟩ := hturns s.log.pending { s with drain := .top } (le_refl _) rfl
  refine ⟨1 + k, released, ?_⟩
  have hcall : s.run drv (List.replicate 1 .drain) = { s with drain := .top } := by
    simp only [List.replicate, RingSystem.run, List.foldl_cons, List.foldl_nil, RingSystem.step,
      RingSystem.drainStep, hpc]
  rw [run_drains, hcall, hk]
  rfl

/-! ### A call under way -/

/-- The code and the data of the event that is being pushed. -/
def PushPc.call : PushPc → Option (UInt8 × UInt32)
  | .idle => none
  | .entered ev value => some (ev.code, value)
  | .loaded ev value _ => some (ev.code, value)
  | .code ev value _ => some (ev.code, value)
  | .time ev value _ => some (ev.code, value)
  | .data ev value _ _ => some (ev.code, value)
  | .publish p _ => some (p.code, p.data)

/-- How many steps of its own the push still has at most. -/
def PushPc.left : PushPc → Nat
  | .idle => 0
  | .entered _ _ => 6
  | .loaded _ _ _ => 5
  | .code _ _ _ => 4
  | .time _ _ _ => 3
  | .data _ _ _ _ => 2
  | .publish _ _ => 1

/-- What a step makes of a push under way: it goes on, closer to its end if the step is its
own; or the event is accepted; or it is refused by a full ring. -/
inductive Served (s : RingSystem δ) (call : UInt8 × UInt32) (own : Bool) (s' : RingSystem δ) : Prop
  | goesOn (call_eq : s'.push.call = some call) (accepted : s'.accepted = s.accepted)
    (left : s'.push.left + own.toNat ≤ s.push.left)
  | accepted (idle : s'.push = .idle)
    (accepted : ∃ tMs, s'.accepted = s.accepted ++ [⟨call.1, tMs, call.2⟩])
  | refused (idle : s'.push = .idle) (accepted : s'.accepted = s.accepted)
    (full : s.accepted.length = s.released + RING_N)

def RingAct.isPush : RingAct → Bool
  | .push _ => true
  | _ => false

theorem RingInv.full (h : RingInv base s) (hfull : (s.log.head - s.log.tail).toNat ≥ RING_N) :
    s.accepted.length = s.released + RING_N := by
  have hroom := h.room
  have horder := h.order
  rw [h.count] at hfull
  omega

/-- The producer's own step. -/
theorem RingInv.served (h : RingInv base s) (nowUs : Int) {call : UInt8 × UInt32}
    (hcall : s.push.call = some call) : Served s call true (s.pushStep nowUs) := by
  have hpush := h.push
  unfold RingSystem.pushStep
  cases hpc : s.push with
  | idle => simp [hpc, PushPc.call] at hcall
  | entered ev data =>
    dsimp only
    rw [if_neg h.part]
    rw [hpc] at hcall
    exact .goesOn hcall rfl (by rw [hpc]; exact le_refl _)
  | loaded ev data head =>
    rw [hpc] at hpush hcall
    obtain rfl : head = s.log.head := hpush
    dsimp only
    split_ifs with hfull
    · exact .refused rfl rfl (h.full hfull)
    · exact .goesOn hcall rfl (by rw [hpc]; exact le_refl _)
  | code ev data head =>
    rw [hpc] at hcall
    exact .goesOn hcall rfl (by rw [hpc]; exact le_refl _)
  | time ev data head =>
    rw [hpc] at hcall
    exact .goesOn hcall rfl (by rw [hpc]; exact le_refl _)
  | data ev data head tMs =>
    rw [hpc] at hcall
    exact .goesOn hcall rfl (by rw [hpc]; exact le_refl _)
  | publish p head =>
    rw [hpc] at hcall
    obtain rfl : (p.code, p.data) = call := Option.some.inj hcall
    exact .accepted rfl ⟨p.tMs, rfl⟩

/-- A step of the consumer leaves the producer alone. -/
theorem drainStep_frame (s : RingSystem δ) :
    (s.drainStep drv).push = s.push ∧ (s.drainStep drv).accepted = s.accepted := by
  unfold RingSystem.drainStep
  cases s.drain with
  | loop tail head batch => dsimp only; split_ifs <;> exact ⟨rfl, rfl⟩
  | _ => exact ⟨rfl, rfl⟩

theorem RingInv.servedBy (h : RingInv base s) (act : RingAct) {call : UInt8 × UInt32}
    (hcall : s.push.call = some call) : Served s call act.isPush (s.step drv act) := by
  cases act with
  | call ev data =>
    have hbusy : s.step drv (.call ev data) = s := by
      unfold RingSystem.step
      cases hpc : s.push with
      | idle => simp [hpc, PushPc.call] at hcall
      | _ => rfl
    rw [hbusy]
    exact .goesOn hcall rfl (le_refl _)
  | push nowUs => exact h.served nowUs hcall
  | drain =>
    obtain ⟨hpush, haccepted⟩ := drainStep_frame drv s
    exact .goesOn (hpush ▸ hcall) haccepted (by simp only [RingSystem.step, hpush]; exact le_refl _)

/-- A drain that ends has released all that its last look at `m_head` has shown. -/
theorem RingInv.drained (h : RingInv base s) {tail head : UInt32} {batch : List Rec}
    (hpc : s.drain = .loop tail head batch) (hend : (s.drainStep drv).drain = .idle) :
    s.log.tail = head := by
  have hdrain := h.drain
  rw [hpc] at hdrain
  obtain ⟨k, hcopying⟩ := hdrain
  unfold RingSystem.drainStep at hend
  simp only [hpc] at hend
  split_ifs at hend with hmore hempty
  subst hempty
  have hstop : tail = head := by
    by_contra hne
    exact hmore ⟨hne, by decide⟩
  rw [← hstop, hcopying.tail_eq, h.tail]
  rfl

/-! ### The ring after any run -/

/-- What the ring owes after any run.  The records appended to the flash are the accepted
events in order, valid and of this boot; the others, `RING_N` at most, wait in their slots,
none when the ring is empty; and no slot of an unreleased event is written.

A call begins a push, which ends after at most six steps of its own, whatever the other task
does: its event is accepted, or `RING_N` events are not released.  A drain that ends has
released all that it has seen in the ring.  Uninterrupted, a push is `Log.push` and a drain
is `Log.drainLocked`, after which every accepted event is in the flash. -/
structure RingFaithful (log : Log δ) (s : RingSystem δ) : Prop where
  order : ∃ appended waiting, evlog.written s.log.ops = evlog.written log.ops ++ appended ∧
    s.accepted = appended.map Rec.event ++ waiting ∧ waiting.length ≤ RING_N ∧
    (s.log.head = s.log.tail → waiting = []) ∧
    ∀ r ∈ appended, recValid r = true ∧ r.head.toUInt16 = log.bootSeq
  waits : ∀ i, s.released ≤ i → ∀ p, s.accepted[i]? = some p → s.log.ring (i % RING_N) = p
  free : ∀ head, s.push.writes = some head →
    ∀ i, s.released ≤ i → i < s.accepted.length → i % RING_N ≠ Log.slot head
  refuses : ∀ ev data head nowUs, s.push = .loaded ev data head →
    (s.pushStep nowUs).push = .idle → s.accepted.length = s.released + RING_N
  called : s.push = .idle → ∀ ev data,
    (s.step drv (.call ev data)).push.call = some (ev.code, data)
  served : ∀ act call, s.push.call = some call → Served s call act.isPush (s.step drv act)
  drained : ∀ tail head batch, s.drain = .loop tail head batch →
    (s.drainStep drv).drain = .idle → s.log.tail = head
  pushAlone : s.push = .idle → ∀ ev data nowUs,
    s.run drv (.call ev data :: List.replicate 6 (.push nowUs)) =
      { s with
        log := s.log.push ev data nowUs
        push := .idle
        accepted :=
          if s.accepted.length = s.released + RING_N then s.accepted
          else s.accepted ++ [⟨ev.code, UInt32.ofInt (nowUs / 1000), data⟩] }
  drainAlone : s.drain = .idle →
    (∃ k, s.run drv (List.replicate k .drain) =
      { s with log := s.log.drainLocked drv, drain := .idle, released := s.accepted.length }) ∧
    evlog.written (s.log.drainLocked drv).ops =
      evlog.written log.ops ++ s.accepted.map (PendingRec.record log.bootSeq)

theorem RingInv.order_faithful (h : RingInv base s) :
    ∃ appended waiting, evlog.written s.log.ops = base ++ appended ∧
      s.accepted = appended.map Rec.event ++ waiting ∧ waiting.length ≤ RING_N ∧
      (s.log.head = s.log.tail → waiting = []) ∧
      ∀ r ∈ appended, recValid r = true ∧ r.head.toUInt16 = s.log.bootSeq := by
  refine ⟨_, s.accepted.drop (s.drain.appended s.released), h.written, ?_, ?_, ?_, ?_⟩
  · rw [List.map_map]
    have hid : Rec.event ∘ PendingRec.record s.log.bootSeq = id := by
      funext p
      exact event_record _ p
    rw [hid, List.map_id, List.take_append_drop]
  · have hroom := h.room
    have happended := le_appended s.drain s.released
    rw [List.length_drop]
    omega
  · intro hempty
    have hcount := h.count
    rw [hempty, UInt32.sub_self, UInt32.toNat_zero] at hcount
    have happended := le_appended s.drain s.released
    exact List.drop_eq_nil_of_le (by omega)
  · intro r hr
    obtain ⟨p, -, rfl⟩ := List.mem_map.mp hr
    exact ⟨mkRec_valid .., recHead_boot ..⟩

theorem RingInv.pushAlone (h : RingInv base s) (hidle : s.push = .idle) (ev : Ev) (data : UInt32)
    (nowUs : Int) :
    s.run drv (.call ev data :: List.replicate 6 (.push nowUs)) =
      { s with
        log := s.log.push ev data nowUs
        push := .idle
        accepted :=
          if s.accepted.length = s.released + RING_N then s.accepted
          else s.accepted ++ [⟨ev.code, UInt32.ofInt (nowUs / 1000), data⟩] } := by
  have hfull : (s.log.part = none ∨ s.log.pending ≥ RING_N) ↔
      s.accepted.length = s.released + RING_N := by
    refine ⟨fun hor => h.full (hor.resolve_left h.part), fun hfull => Or.inr ?_⟩
    have hcount := h.count
    rw [Log.pending]
    omega
  rw [push_alone drv hidle]
  simp only [hfull]

theorem drainLocked_head (s : Log δ) : (s.drainLocked drv).head = s.head :=
  Log.drainTurns_induction drv s (P := fun t => t.head = s.head)
    (fun t ht _ => (Log.flashAppend_sameRam drv t _).head.trans ht) _ rfl

theorem RingInv.drainAlone (hok : ∀ f off recs, (drv.write f off recs).1 = true)
    (hok' : ∀ f off size, (drv.erase f off size).1 = true) (h : RingInv base s)
    (hidle : s.drain = .idle) :
    (∃ k, s.run drv (List.replicate k .drain) =
      { s with log := s.log.drainLocked drv, drain := .idle, released := s.accepted.length }) ∧
    evlog.written (s.log.drainLocked drv).ops =
      base ++ s.accepted.map (PendingRec.record s.log.bootSeq) := by
  obtain ⟨k, released, hk⟩ := drain_alone drv hidle
  have hboot := run_bootSeq drv s (List.replicate k .drain)
  have hafter := h.run drv hok hok' (List.replicate k .drain)
  rw [hk] at hafter hboot
  have hcount : 0 = s.accepted.length - released := by
    refine Eq.trans ?_ hafter.count
    change 0 = ((s.log.drainLocked drv).head - (s.log.drainLocked drv).tail).toNat
    rw [Log.drainLocked_tail, drainLocked_head, UInt32.sub_self, UInt32.toNat_zero]
  have hle : released ≤ s.accepted.length := hafter.order
  obtain rfl : released = s.accepted.length := by omega
  refine ⟨⟨k, hk⟩, ?_⟩
  have hwritten := hafter.written
  simp only [DrainPc.appended, List.take_length] at hwritten
  rw [hwritten, hboot]

/-- **The ring loses, duplicates and reorders nothing**, however the two tasks interleave and
however long they run. -/
theorem event_ring (hok : ∀ f off recs, (drv.write f off recs).1 = true)
    (hok' : ∀ f off size, (drv.erase f off size).1 = true) {log : Log δ} (hpart : log.part ≠ none)
    (acts : List RingAct) : RingFaithful drv log ((RingSystem.start log).run drv acts) := by
  have h := (RingInv.start log hpart).run drv hok hok' acts
  have hboot : ((RingSystem.start log).run drv acts).log.bootSeq = log.bootSeq :=
    run_bootSeq drv _ acts
  revert h hboot
  generalize (RingSystem.start log).run drv acts = s
  intro h hboot
  constructor
  · have horder := h.order_faithful
    rwa [hboot] at horder
  · exact h.holds
  · exact fun head hw i => h.writes_free hw
  · intro ev data head nowUs hpc hidle
    have hpush := h.push
    rw [hpc] at hpush
    obtain rfl : head = s.log.head := hpush
    simp only [RingSystem.pushStep, hpc] at hidle
    split_ifs at hidle with hfull
    exact h.full hfull
  · intro hidle ev data
    rw [RingSystem.step, hidle]
    rfl
  · exact fun act call hcall => h.servedBy drv act hcall
  · exact fun tail head batch hpc hend => h.drained drv hpc hend
  · exact fun hidle ev data nowUs => h.pushAlone drv hidle ev data nowUs
  · intro hidle
    have hdrain := h.drainAlone drv hok hok' hidle
    rwa [hboot] at hdrain

def ringLog : Log Unit := (Log.boot ()).init blankDriver (some 65536) 1000 1

theorem event_ring_bench :
    RingFaithful blankDriver ringLog ((RingSystem.start ringLog).run blankDriver
      [.call .arm 0, .push 0, .push 0, .drain, .push 0, .drain, .push 5000, .push 0, .push 0]) :=
  event_ring blankDriver (fun _ _ _ => rfl) (fun _ _ _ => rfl) (by decide) _

end evlog

end KartFirmware

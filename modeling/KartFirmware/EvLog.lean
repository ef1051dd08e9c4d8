import KartFirmware.Status

/-!
# The event log

`evlog.cpp` over a flash driver: `push` into the RAM ring, the drain of the ring
to the partition in batches, `init`, `maintain` and `clear`.  The driver is a
parameter with any state and any answers; every write and erase that is issued is
recorded in `ops`, whatever the driver answers.  The ring indices are 32 bits wide
and free-running.

Both `maintain` and `clear` are guarded by a zero-timeout look at the status and
go on when the look fails, so with the kart armed they leave the flash alone
exactly when the look succeeds or there is nothing to do
(`evlog.armed_flash_untouched_iff`).
-/

set_option linter.unusedSectionVars false

namespace KartFirmware

/-! ### Records -/

namespace evlog

inductive Ev where
  | boot
  | arm
  | disarm
deriving DecidableEq, Repr

def Ev.code : Ev → UInt8
  | .boot => 1
  | .arm => 2
  | .disarm => 7

structure Rec where
  head : UInt32
  tMs : UInt32
  data : UInt32
  chk : UInt32
deriving DecidableEq

structure PendingRec where
  code : UInt8
  tMs : UInt32
  data : UInt32
deriving DecidableEq

def MAGIC : UInt32 := 0xEB
def BLANK : UInt32 := 0xFFFFFFFF
def RING_N : Nat := 32
def REC_BYTES : Nat := 16

def recHead (code : UInt8) (boot : UInt16) : UInt32 :=
  MAGIC <<< 24 ||| code.toUInt32 <<< 16 ||| boot.toUInt32

def recChk (head tMs data : UInt32) : UInt32 := head ^^^ tMs ^^^ data ^^^ 0xA5A5A5A5

def recValid (r : Rec) : Bool := r.head >>> 24 == MAGIC && r.chk == recChk r.head r.tMs r.data

/-- A record of this boot, with its checksum. -/
def mkRec (code : UInt8) (boot : UInt16) (tMs data : UInt32) : Rec where
  head := recHead code boot
  tMs := tMs
  data := data
  chk := recChk (recHead code boot) tMs data

/-- The three parts of the word do not overlap. -/
theorem recHead_toNat (code : UInt8) (boot : UInt16) :
    (recHead code boot).toNat = 0xEB * 2 ^ 24 + code.toNat * 2 ^ 16 + boot.toNat := by
  have hcode := code.toNat_lt
  have hboot := boot.toNat_lt
  have hmagic : (MAGIC <<< 24).toNat = 2 ^ 24 * 0xEB := rfl
  have hshift : (code.toUInt32 <<< 16).toNat = code.toNat * 2 ^ 16 := by
    rw [UInt32.toNat_shiftLeft, UInt8.toNat_toUInt32, Nat.shiftLeft_eq]
    change code.toNat * 2 ^ 16 % 2 ^ 32 = _
    omega
  rw [recHead, UInt32.toNat_or, UInt32.toNat_or, hmagic, hshift, UInt16.toNat_toUInt32,
    ← Nat.two_pow_add_eq_or_of_lt (by omega)]
  have hhigh : 2 ^ 24 * 0xEB + code.toNat * 2 ^ 16 = 2 ^ 16 * (2 ^ 8 * 0xEB + code.toNat) := by
    omega
  rw [hhigh, ← Nat.two_pow_add_eq_or_of_lt hboot]
  omega

theorem recHead_magic (code : UInt8) (boot : UInt16) : recHead code boot >>> 24 = MAGIC := by
  have hboot := boot.toNat_lt
  have hcode := code.toNat_lt
  apply UInt32.toNat_inj.mp
  rw [UInt32.toNat_shiftRight, recHead_toNat, Nat.shiftRight_eq_div_pow]
  change _ / 2 ^ 24 = 0xEB
  omega

theorem recHead_code (code : UInt8) (boot : UInt16) :
    (recHead code boot >>> 16).toUInt8 = code := by
  have hboot := boot.toNat_lt
  have hcode := code.toNat_lt
  apply UInt8.toNat_inj.mp
  rw [UInt32.toNat_toUInt8, UInt32.toNat_shiftRight, recHead_toNat, Nat.shiftRight_eq_div_pow]
  change _ / 2 ^ 16 % 2 ^ 8 = _
  omega

theorem recHead_boot (code : UInt8) (boot : UInt16) : (recHead code boot).toUInt16 = boot := by
  have hboot := boot.toNat_lt
  apply UInt16.toNat_inj.mp
  rw [UInt32.toNat_toUInt16, recHead_toNat]
  omega

theorem mkRec_valid (code : UInt8) (boot : UInt16) (tMs data : UInt32) :
    recValid (mkRec code boot tMs data) = true := by
  have hmagic := recHead_magic code boot
  simp [recValid, mkRec, hmagic]
/-! ### The partition -/

/-- `esp_partition_read` of one record, `esp_partition_write` and
`esp_partition_erase_range`, over any state of the flash. -/
structure FlashDriver (δ : Type) where
  read : δ → Nat → Option Rec
  write : δ → Nat → List Rec → Bool × δ
  erase : δ → Nat → Nat → Bool × δ

inductive FlashOp where
  | write (off : Nat) (recs : List Rec)
  | erase (off size : Nat)
deriving DecidableEq

/-- The statics of the module, and the flash behind it. -/
structure Log (δ : Type) where
  /-- The size of the partition, if there is one. -/
  part : Option Nat
  writeOff : Nat
  bootSeq : UInt16
  ring : Nat → PendingRec
  head : UInt32
  tail : UInt32
  flash : δ
  ops : List FlashOp

def Log.boot {δ : Type} (flash : δ) : Log δ where
  part := none
  writeOff := 0
  bootSeq := 0
  ring _ := { code := 0, tMs := 0, data := 0 }
  head := 0
  tail := 0
  flash := flash
  ops := []

namespace Log

variable {δ : Type} (drv : FlashDriver δ)

def partitionWrite (s : Log δ) (off : Nat) (recs : List Rec) : Bool × Log δ :=
  let r := drv.write s.flash off recs
  (r.1, { s with flash := r.2, ops := .write off recs :: s.ops })

def partitionErase (s : Log δ) (off size : Nat) : Bool × Log δ :=
  let r := drv.erase s.flash off size
  (r.1, { s with flash := r.2, ops := .erase off size :: s.ops })

def appendAt (s : Log δ) (recs : List Rec) : Log δ :=
  let r := s.partitionWrite drv s.writeOff recs
  if r.1 then { r.2 with writeOff := s.writeOff + recs.length * REC_BYTES } else r.2

/-- Appends records, erasing the partition first when it is full. -/
def flashAppend (s : Log δ) (recs : List Rec) : Log δ :=
  match s.part with
  | none => s
  | some size =>
    if recs = [] then s
    else if s.writeOff + recs.length * REC_BYTES > size then
      let r := s.partitionErase drv 0 size
      if r.1 then appendAt drv { r.2 with writeOff := 0 } recs else r.2
    else appendAt drv s recs

def slot (i : UInt32) : Nat := i.toNat % RING_N

/-- The batch that one turn of the drain collects from `tail` on: `n` records at
most, and the index after the last of them. -/
def collect (s : Log δ) : Nat → UInt32 → List Rec × UInt32
  | 0, tail => ([], tail)
  | n + 1, tail =>
    if tail = s.head then ([], tail)
    else
      let p := s.ring (slot tail)
      let rest := s.collect n (tail + 1)
      (mkRec p.code s.bootSeq p.tMs p.data :: rest.1, rest.2)

def drainTurns (s : Log δ) : Nat → Log δ
  | 0 => s
  | fuel + 1 =>
    let batch := s.collect 16 s.tail
    if batch.1 = [] then s
    else drainTurns { s.flashAppend drv batch.1 with tail := batch.2 } fuel

def pending (s : Log δ) : Nat := (s.head - s.tail).toNat

/-- `drainLocked`, without the count it returns.  Every turn takes at least one
event, so as many turns as events wait are enough (`drainLocked_tail`). -/
def drainLocked (s : Log δ) : Log δ := s.drainTurns drv s.pending

/-! ### The interface -/

/-- The scan of `init`: the first blank slot, and the highest boot number seen. -/
def scan (s : Log δ) : Nat → Nat → UInt16 → Nat × UInt16
  | 0, off, last => (off, last)
  | fuel + 1, off, last =>
    match drv.read s.flash off with
    | none => (off, last)
    | some r =>
      if r.head = BLANK then (off, last)
      else
        let b := r.head.toUInt16
        scan s fuel (off + REC_BYTES) (if recValid r ∧ b ≥ last then b else last)

/-- `init`, with the size of the partition that was found, the clock and the reset
reason. -/
def init (s : Log δ) (found : Option Nat) (nowUs : Int) (reset : UInt32) : Log δ :=
  match found with
  | none => s
  | some size =>
    let s := { s with part := some size }
    let r := s.scan drv ((size + REC_BYTES - 1) / REC_BYTES) 0 0
    let s := { s with writeOff := r.1, bootSeq := r.2 + 1 }
    s.flashAppend drv [mkRec Ev.boot.code s.bootSeq (UInt32.ofInt (nowUs / 1000)) reset]

/-- `push`: into the ring, or dropped when it is full. -/
def push (s : Log δ) (ev : Ev) (data : UInt32) (nowUs : Int) : Log δ :=
  if s.part = none then s
  else if s.pending ≥ RING_N then s
  else
    { s with
      ring := Function.update s.ring (slot s.head)
        { code := ev.code, tMs := UInt32.ofInt (nowUs / 1000), data := data }
      head := s.head + 1 }

variable {F : Type} [CFloat F]

/-- The guard of every flash write: the look succeeds and says armed. -/
def seenArmed (st : KartStatus F) (busy : Bool) : Bool :=
  match statusTrySnapshot st busy with
  | some st => st.arming
  | none => false

def maintain (s : Log δ) (st : KartStatus F) (busy : Bool) : Log δ :=
  if s.part = none then s
  else if s.head = s.tail then s
  else if seenArmed st busy then s
  else s.drainLocked drv

/-- `clear`, and whether the partition was erased. -/
def clear (s : Log δ) (st : KartStatus F) (busy : Bool) (nowUs : Int) (reset : UInt32) :
    Log δ × Bool :=
  match s.part with
  | none => (s, false)
  | some size =>
    if seenArmed st busy then (s, false)
    else
      let r := s.partitionErase drv 0 size
      if r.1 then
        (({ r.2 with writeOff := 0 } : Log δ).flashAppend drv
          [mkRec Ev.boot.code s.bootSeq (UInt32.ofInt (nowUs / 1000)) reset], true)
      else (r.2, false)

/-- `stats`: the records on flash, and the events that wait in the ring. -/
def stats (s : Log δ) : Nat × Nat :=
  (if s.part = none then 0 else s.writeOff / REC_BYTES, s.pending)

/-- The loop of `readAt`. -/
def readFrom (s : Log δ) : Nat → Nat → List Rec
  | 0, _ => []
  | cap + 1, idx =>
    if idx < s.writeOff / REC_BYTES then
      match drv.read s.flash (idx * REC_BYTES) with
      | none => []
      | some r =>
        let rest := readFrom s cap (idx + 1)
        if recValid r then r :: rest else rest
    else []

/-- `readAt`: the valid records of the slots from `idx` on, `cap` of them at most. -/
def readAt (s : Log δ) (idx cap : Nat) : List Rec :=
  if s.part = none then [] else readFrom drv s cap idx

/-! ### The drain -/

section Drain

variable (s : Log δ)

theorem pending_step {head tail : UInt32} (h : tail ≠ head) :
    (head - (tail + 1)).toNat + 1 = (head - tail).toNat := by
  have hne : tail.toNat ≠ head.toNat := fun heq => h (UInt32.toNat_inj.mp heq)
  have hhead := head.toNat_lt
  have htail := tail.toNat_lt
  rw [UInt32.toNat_sub, UInt32.toNat_sub, UInt32.toNat_add, UInt32.toNat_one]
  omega

theorem pending_eq_zero {head tail : UInt32} : (head - tail).toNat = 0 ↔ tail = head := by
  have hhead := head.toNat_lt
  have htail := tail.toNat_lt
  rw [← UInt32.toNat_inj, UInt32.toNat_sub]
  omega

/-- A batch holds the waiting events, `n` at most, and moves the tail past them. -/
theorem collect_spec (n : Nat) (tail : UInt32) :
    (s.collect n tail).1.length = min n (s.head - tail).toNat ∧
      (s.head - (s.collect n tail).2).toNat = (s.head - tail).toNat - n := by
  induction n generalizing tail with
  | zero => simp [collect]
  | succ n ih =>
    rw [collect]
    split_ifs with hempty
    · have hzero : (s.head - tail).toNat = 0 := pending_eq_zero.mpr hempty
      simp [hzero]
    · have hstep := pending_step hempty
      obtain ⟨hlen, hrest⟩ := ih (tail + 1)
      simp only [List.length_cons, hlen, hrest]
      omega

/-- What a batch says of its records is what `mkRec` makes of every event. -/
theorem collect_forall {Q : Rec → Prop}
    (hQ : ∀ code tMs data, Q (mkRec code s.bootSeq tMs data)) (n : Nat) (tail : UInt32) :
    ∀ r ∈ (s.collect n tail).1, Q r := by
  induction n generalizing tail with
  | zero => exact fun r hr => absurd hr List.not_mem_nil
  | succ n ih =>
    intro r hr
    rw [collect] at hr
    split_ifs at hr
    · exact absurd hr List.not_mem_nil
    · rcases List.mem_cons.mp hr with rfl | hrest
      · exact hQ _ _ _
      · exact ih (tail + 1) r hrest

/-- The ring and what `init` has set are the same. -/
structure SameRam (s s' : Log δ) : Prop where
  ring : s'.ring = s.ring
  head : s'.head = s.head
  tail : s'.tail = s.tail
  bootSeq : s'.bootSeq = s.bootSeq
  part : s'.part = s.part

theorem appendAt_sameRam (recs : List Rec) : SameRam s (s.appendAt drv recs) := by
  unfold appendAt
  dsimp only
  split_ifs <;> exact ⟨rfl, rfl, rfl, rfl, rfl⟩

/-- An append touches the flash, the offset and the trace of operations only. -/
theorem flashAppend_sameRam (recs : List Rec) : SameRam s (s.flashAppend drv recs) := by
  unfold flashAppend
  cases hpart : s.part with
  | none => exact ⟨rfl, rfl, rfl, rfl, rfl⟩
  | some size =>
    dsimp only
    split_ifs
    · exact ⟨rfl, rfl, rfl, rfl, rfl⟩
    · obtain ⟨hring, hhead, htail, hboot, hkeep⟩ := appendAt_sameRam drv
        ({ (s.partitionErase drv 0 size).2 with writeOff := 0 } : Log δ) recs
      exact ⟨hring, hhead, htail, hboot, hkeep⟩
    · exact ⟨rfl, rfl, rfl, rfl, rfl⟩
    · exact appendAt_sameRam drv s recs

theorem appendAt_ops (recs : List Rec) :
    (s.appendAt drv recs).ops = .write s.writeOff recs :: s.ops := by
  unfold appendAt
  dsimp only
  split_ifs <;> rfl

/-- Appending something to a partition always issues a flash operation. -/
theorem flashAppend_ops {size : Nat} (hpart : s.part = some size) {recs : List Rec}
    (hrecs : recs ≠ []) : s.ops.length < (s.flashAppend drv recs).ops.length := by
  unfold flashAppend
  rw [hpart]
  have herased : (s.partitionErase drv 0 size).2.ops.length = s.ops.length + 1 := rfl
  simp only
  split_ifs with hempty hfull herase
  · exact absurd hempty hrecs
  · rw [appendAt_ops, List.length_cons]
    exact Nat.lt_succ_of_lt (herased ▸ Nat.lt_succ_self _)
  · exact herased ▸ Nat.lt_succ_self _
  · rw [appendAt_ops, List.length_cons]
    exact Nat.lt_succ_self _

/-- The rule of a drain: what every batch keeps, the drain keeps. -/
theorem drainTurns_induction {P : Log δ → Prop}
    (hbatch : ∀ t : Log δ, P t → (t.collect 16 t.tail).1 ≠ [] →
      P { t.flashAppend drv (t.collect 16 t.tail).1 with tail := (t.collect 16 t.tail).2 })
    (fuel : Nat) (h : P s) : P (s.drainTurns drv fuel) := by
  induction fuel generalizing s with
  | zero => exact h
  | succ fuel ih =>
    rw [drainTurns]
    split_ifs with hempty
    · exact h
    · exact ih _ (hbatch s h hempty)

theorem drainTurns_ops {size : Nat} (fuel : Nat) (hpart : s.part = some size) :
    s.ops.length ≤ (s.drainTurns drv fuel).ops.length := by
  have hrun : (s.drainTurns drv fuel).part = some size ∧
      s.ops.length ≤ (s.drainTurns drv fuel).ops.length := by
    apply drainTurns_induction drv s (P := fun t => t.part = some size ∧ s.ops.length ≤ t.ops.length)
    · rintro t ⟨ht, hle⟩ hrecs
      have hkeep := (flashAppend_sameRam drv t (t.collect 16 t.tail).1).part
      exact ⟨hkeep.trans ht, hle.trans (flashAppend_ops drv t ht hrecs).le⟩
    · exact ⟨hpart, Nat.le_refl _⟩
  exact hrun.2

theorem drainTurns_part (fuel : Nat) : (s.drainTurns drv fuel).part = s.part := by
  apply drainTurns_induction drv s (P := fun t => t.part = s.part)
  · intro t ht _
    exact (flashAppend_sameRam drv t _).part.trans ht
  · rfl

/-- With as many turns as events wait the drain empties the ring. -/
theorem drainTurns_tail (fuel : Nat) (h : s.pending ≤ fuel) :
    (s.drainTurns drv fuel).tail = s.head := by
  induction fuel generalizing s with
  | zero => exact pending_eq_zero.mp (Nat.le_zero.mp h)
  | succ fuel ih =>
    obtain ⟨hlen, hrest⟩ := collect_spec s 16 s.tail
    rw [drainTurns]
    split_ifs with hempty
    · rw [hempty, List.length_nil] at hlen
      exact pending_eq_zero.mp (by omega)
    · have hpos : (s.collect 16 s.tail).1.length ≠ 0 := by
        rwa [ne_eq, List.length_eq_zero_iff]
      have hhead := (flashAppend_sameRam drv s (s.collect 16 s.tail).1).head
      refine Eq.trans (ih _ ?_) hhead
      simp only [pending, hhead] at h ⊢
      omega

theorem drainLocked_tail : (s.drainLocked drv).tail = s.head :=
  drainTurns_tail drv s s.pending (Nat.le_refl _)

/-- A drain of a ring that is not empty issues a flash operation. -/
theorem drainLocked_ops {size : Nat} (hpart : s.part = some size) (hring : s.head ≠ s.tail) :
    s.ops.length < (s.drainLocked drv).ops.length := by
  have hpos : s.pending ≠ 0 := fun hzero => hring (pending_eq_zero.mp hzero).symm
  obtain ⟨fuel, hfuel⟩ := Nat.exists_eq_succ_of_ne_zero hpos
  obtain ⟨hlen, -⟩ := collect_spec s 16 s.tail
  have hbatch : (s.collect 16 s.tail).1 ≠ [] := by
    intro hempty
    rw [hempty, List.length_nil] at hlen
    simp only [pending] at hpos
    omega
  rw [drainLocked, hfuel, drainTurns, if_neg hbatch]
  have hkeep := (flashAppend_sameRam drv s (s.collect 16 s.tail).1).part.trans hpart
  exact Nat.lt_of_lt_of_le (flashAppend_ops drv s hpart hbatch)
    (drainTurns_ops drv
      ({ s.flashAppend drv (s.collect 16 s.tail).1 with tail := (s.collect 16 s.tail).2 } : Log δ)
      fuel hkeep)

end Drain

/-! ### What the driver keeps -/

section Keeps

variable {P : δ → Prop} (hwrite : ∀ d off recs, P d → P (drv.write d off recs).2)
  (herase : ∀ d off size, P d → P (drv.erase d off size).2) {s : Log δ}

include hwrite

theorem appendAt_keeps (h : P s.flash) (recs : List Rec) : P (s.appendAt drv recs).flash := by
  unfold appendAt
  dsimp only
  split_ifs
  · exact hwrite _ _ _ h
  · exact hwrite _ _ _ h

include herase

theorem flashAppend_keeps (h : P s.flash) (recs : List Rec) : P (s.flashAppend drv recs).flash := by
  unfold flashAppend
  cases s.part with
  | none => exact h
  | some size =>
    dsimp only
    split_ifs
    · exact h
    · exact appendAt_keeps drv hwrite (herase _ _ _ h) recs
    · exact herase _ _ _ h
    · exact appendAt_keeps drv hwrite h recs

theorem drainTurns_keeps (fuel : Nat) (h : P s.flash) : P (s.drainTurns drv fuel).flash :=
  drainTurns_induction drv s (P := fun t => P t.flash)
    (fun _ ht _ => flashAppend_keeps drv hwrite herase ht _) fuel h

/-- What every write and every erase keeps, the calls of the interface keep. -/
theorem maintain_keeps (h : P s.flash) (st : KartStatus F) (busy : Bool) :
    P (s.maintain drv st busy).flash := by
  unfold maintain
  split_ifs
  · exact h
  · exact h
  · exact h
  · exact drainTurns_keeps drv hwrite herase _ h

theorem clear_keeps (h : P s.flash) (st : KartStatus F) (busy : Bool) (nowUs : Int)
    (reset : UInt32) : P (s.clear drv st busy nowUs reset).1.flash := by
  unfold clear
  cases s.part with
  | none => exact h
  | some size =>
    dsimp only
    split_ifs
    · exact h
    · exact flashAppend_keeps drv hwrite herase (herase _ _ _ h) _
    · exact herase _ _ _ h

theorem init_keeps (h : P s.flash) (found : Option Nat) (nowUs : Int) (reset : UInt32) :
    P (s.init drv found nowUs reset).flash := by
  unfold init
  cases found with
  | none => exact h
  | some size =>
    apply flashAppend_keeps drv hwrite herase
    exact h

end Keeps

/-! ### The armed guard -/

theorem seenArmed_of_arming {st : KartStatus F} (h : st.arming = true) (busy : Bool) :
    seenArmed st busy = !busy := by
  cases busy
  · exact h
  · rfl

theorem maintain_part (s : Log δ) (st : KartStatus F) (busy : Bool) :
    (s.maintain drv st busy).part = s.part := by
  unfold maintain
  split_ifs
  · rfl
  · rfl
  · rfl
  · exact drainTurns_part drv s _

/-- Clearing touches the flash, the offset and the trace only. -/
theorem clear_sameRam (s : Log δ) (st : KartStatus F) (busy : Bool) (nowUs : Int)
    (reset : UInt32) : SameRam s (s.clear drv st busy nowUs reset).1 := by
  unfold clear
  cases s.part with
  | none => exact ⟨rfl, rfl, rfl, rfl, rfl⟩
  | some size =>
    dsimp only
    split_ifs
    · exact ⟨rfl, rfl, rfl, rfl, rfl⟩
    · obtain ⟨hring, hhead, htail, hboot, hkeep⟩ := flashAppend_sameRam drv
        ({ (s.partitionErase drv 0 size).2 with writeOff := 0 } : Log δ)
        [mkRec Ev.boot.code s.bootSeq (UInt32.ofInt (nowUs / 1000)) reset]
      exact ⟨hring, hhead, htail, hboot, hkeep⟩
    · exact ⟨rfl, rfl, rfl, rfl, rfl⟩

theorem clear_ops (s : Log δ) {size : Nat} (hpart : s.part = some size) (st : KartStatus F)
    (busy : Bool) (nowUs : Int) (reset : UInt32) (h : seenArmed st busy = false) :
    s.ops.length < (s.clear drv st busy nowUs reset).1.ops.length := by
  have herase : s.ops.length < (s.partitionErase drv 0 size).2.ops.length := by
    simp only [partitionErase, List.length_cons]
    omega
  unfold clear
  rw [hpart]
  simp only [h, Bool.false_eq_true, if_false]
  split_ifs with hok
  · have hkeep : ({ (s.partitionErase drv 0 size).2 with writeOff := 0 } : Log δ).part =
        some size := hpart
    exact Nat.lt_trans herase (flashAppend_ops drv _ hkeep (List.cons_ne_nil _ _))
  · exact herase

theorem ops_ne {l l' : List FlashOp} (h : l.length < l'.length) : l' ≠ l := by
  rintro rfl
  exact Nat.lt_irrefl _ h

theorem maintain_ops_iff (s : Log δ) {st : KartStatus F} (harmed : st.arming = true)
    (busy : Bool) :
    (s.maintain drv st busy).ops = s.ops ↔
      busy = false ∨ s.part = none ∨ s.head = s.tail := by
  have hseen := seenArmed_of_arming harmed busy
  unfold maintain
  split_ifs with hpart hring hguard
  · exact iff_of_true rfl (Or.inr (Or.inl hpart))
  · exact iff_of_true rfl (Or.inr (Or.inr hring))
  · rw [hseen, Bool.not_eq_true'] at hguard
    exact iff_of_true rfl (Or.inl hguard)
  · rw [hseen, Bool.not_eq_true', Bool.not_eq_false] at hguard
    obtain ⟨size, hsize⟩ := Option.ne_none_iff_exists'.mp hpart
    refine iff_of_false (ops_ne (drainLocked_ops drv s hsize hring)) ?_
    simp [hguard, hpart, hring]

theorem clear_ops_iff (s : Log δ) {st : KartStatus F} (harmed : st.arming = true)
    (busy : Bool) (nowUs : Int) (reset : UInt32) :
    (s.clear drv st busy nowUs reset).1.ops = s.ops ↔ busy = false ∨ s.part = none := by
  have hseen := seenArmed_of_arming harmed busy
  cases hpart : s.part with
  | none =>
    have hkept : (s.clear drv st busy nowUs reset).1 = s := by
      unfold clear
      rw [hpart]
    exact iff_of_true (congrArg Log.ops hkept) (Or.inr rfl)
  | some size =>
    cases busy with
    | false =>
      have hkept : (s.clear drv st false nowUs reset).1 = s := by
        unfold clear
        rw [hpart, hseen]
        rfl
      exact iff_of_true (congrArg Log.ops hkept) (Or.inl rfl)
    | true =>
      exact iff_of_false (ops_ne (clear_ops drv s hpart st true nowUs reset hseen)) (by simp)

end Log

/-! ### Runs -/

/-- What happens to the log: the control loop publishes a status or pushes an event,
the LED task calls `maintain`, the web page calls `clear`.  `busy` says whether
another task holds the status mutex during the call. -/
inductive LogCall (F : Type) where
  | publish (st : KartStatus F)
  | push (ev : Ev) (data : UInt32) (nowUs : Int)
  | maintain (busy : Bool)
  | clear (busy : Bool) (nowUs : Int) (reset : UInt32)

structure LogSystem (F δ : Type) where
  status : KartStatus F
  log : Log δ

section Runs

variable {F : Type} [CFloat F] {δ : Type} (drv : FlashDriver δ)

def LogSystem.call (s : LogSystem F δ) : LogCall F → LogSystem F δ
  | .publish st => { s with status := st }
  | .push ev data nowUs => { s with log := s.log.push ev data nowUs }
  | .maintain busy => { s with log := s.log.maintain drv s.status busy }
  | .clear busy nowUs reset => { s with log := (s.log.clear drv s.status busy nowUs reset).1 }

def LogSystem.machine (flash : δ) (found : Option Nat) (nowUs : Int) (reset : UInt32) :
    Mealy.Machine (LogSystem F δ) (LogCall F) (List FlashOp) where
  init := { status := .initial, log := (Log.boot flash).init drv found nowUs reset }
  step s c := (s.call drv c, (s.call drv c).log.ops)

/-- The call leaves the flash of an armed kart alone: it gets the status mutex, or
has nothing to do. -/
def LogCall.Guarded (log : Log δ) : LogCall F → Prop
  | .publish _ => True
  | .push _ _ _ => True
  | .maintain busy => busy = false ∨ log.part = none ∨ log.head = log.tail
  | .clear busy _ _ => busy = false ∨ log.part = none

theorem LogSystem.call_ops_iff (s : LogSystem F δ) (harmed : s.status.arming = true)
    (c : LogCall F) : (s.call drv c).log.ops = s.log.ops ↔ c.Guarded s.log := by
  cases c with
  | publish st => exact iff_of_true rfl trivial
  | push ev data nowUs =>
    refine iff_of_true ?_ trivial
    simp only [call, Log.push]
    split_ifs <;> rfl
  | maintain busy => exact Log.maintain_ops_iff drv s.log harmed busy
  | clear busy nowUs reset => exact Log.clear_ops_iff drv s.log harmed busy nowUs reset

/-- **When the log leaves the flash alone while armed.**  In every run, a call made
while the published status says armed issues no flash operation exactly when it
gets the status mutex or has nothing to do. -/
theorem armed_flash_untouched_iff (flash : δ) (found : Option Nat) (nowUs : Int)
    (reset : UInt32) (w : Nat → LogCall F) (n : Nat)
    (harmed : ((LogSystem.machine drv flash found nowUs reset).stateAt w n).status.arming = true) :
    ((LogSystem.machine drv flash found nowUs reset).stateAt w (n + 1)).log.ops =
        ((LogSystem.machine drv flash found nowUs reset).stateAt w n).log.ops ↔
      (w n).Guarded ((LogSystem.machine drv flash found nowUs reset).stateAt w n).log := by
  rw [Mealy.Machine.stateAt_succ]
  exact LogSystem.call_ops_iff drv _ harmed (w n)

end Runs

/-! ### An armed kart on the bench -/

/-- A flash that takes every operation and reads blank. -/
def blankDriver : FlashDriver Unit where
  read _ _ := some { head := BLANK, tMs := BLANK, data := BLANK, chk := BLANK }
  write _ _ _ := (true, ())
  erase _ _ _ := (true, ())

def armedStatus : KartStatus Float32 := { KartStatus.initial with state := .run, arming := true }

/-- The kart arms, and `last` is called. -/
def armedCalls (last : LogCall Float32) : Nat → LogCall Float32
  | 0 => .push .arm 0 2000000
  | 1 => .publish armedStatus
  | _ => last

def benchLog : Mealy.Machine (LogSystem Float32 Unit) (LogCall Float32) (List FlashOp) :=
  LogSystem.machine blankDriver () (some 65536) 1000 1

theorem armed_flash_untouched_iff_bench :
    (benchLog.stateAt (armedCalls (.maintain false)) 3).log.ops =
        (benchLog.stateAt (armedCalls (.maintain false)) 2).log.ops ↔
      (armedCalls (.maintain false) 2).Guarded
        (benchLog.stateAt (armedCalls (.maintain false)) 2).log :=
  armed_flash_untouched_iff blankDriver () (some 65536) 1000 1 (armedCalls (.maintain false)) 2
    rfl

/-- Armed, and the mutex busy: `maintain` writes the waiting event, and `clear`
erases the partition. -/
theorem busy_status_flash_written :
    (benchLog.stateAt (armedCalls (.maintain true)) 2).status.arming = true ∧
      (benchLog.stateAt (armedCalls (.maintain true)) 3).log.ops =
        .write 16 [mkRec Ev.arm.code 1 2000 0] ::
          (benchLog.stateAt (armedCalls (.maintain true)) 2).log.ops ∧
      (benchLog.stateAt (armedCalls (.clear true 3000000 1)) 2).status.arming = true ∧
      (benchLog.stateAt (armedCalls (.clear true 3000000 1)) 3).log.ops =
        .write 0 [mkRec Ev.boot.code 1 3000 1] :: .erase 0 65536 ::
          (benchLog.stateAt (armedCalls (.clear true 3000000 1)) 2).log.ops := by
  decide +kernel

end evlog

end KartFirmware

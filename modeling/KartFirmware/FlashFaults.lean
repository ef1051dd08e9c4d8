import KartFirmware.EventRing
import KartFirmware.Recovery

/-!
# A drain whose flash operations fail

The event ring over a flash whose writes and erases may return an error with any prefix
of their bytes or sectors done, for every interleaving of `push`, the drain and `clear`.

`flashAppend` looks at the answers and leaves the append point alone, but tells nobody,
and `drainLocked` moves the tail on.  So nothing is lost as long as no operation of the
drain fails (`evlog.nothing_lost`); a batch whose erase or write fails is gone, and so is
the next one, which is programmed over what the failed write left behind.
-/

set_option linter.unusedSectionVars false

namespace KartFirmware

namespace evlog

open NorFlash RingIndex

/-! ### The operations of a powered flash -/

namespace Nor

variable {size : Nat} {d : Nor}

/-- The records completely written, whether or not an erase has been requested since. -/
def stored (d : Nor) : List Rec := d.erased ++ d.done

theorem failed_write (d : Nor) (off : Nat) (recs : List Rec) (h : d.failed = true) :
    ((norDriver size).write d off recs).2.failed = true := by
  apply write_cases (P := fun r => r.2.failed = true)
  · exact fun _ => h
  · exact fun _ => h
  · exact fun _ _ _ => h
  · exact fun _ _ => rfl

theorem failed_erase (d : Nor) (off len : Nat) (h : d.failed = true) :
    ((norDriver size).erase d off len).2.failed = true := by
  apply erase_cases (P := fun r => r.2.failed = true)
  · exact fun _ => h
  · exact fun _ => h
  · exact fun _ _ _ => h
  · exact fun _ _ _ => rfl

theorem stored_write {l : List Rec} (d : Nor) (off : Nat) (recs : List Rec) (h : l <+: d.stored) :
    l <+: ((norDriver size).write d off recs).2.stored := by
  have hmore : ∀ recs', l <+: d.erased ++ (d.done ++ recs') := by
    intro recs'
    rw [← List.append_assoc]
    exact h.trans (List.prefix_append _ _)
  apply write_cases (P := fun r => l <+: r.2.stored)
  · exact fun _ => h
  · exact fun _ => hmore recs
  · exact fun n _ _ => hmore (recs.take (n / 16))
  · exact fun _ _ => h

theorem stored_erase {l : List Rec} (d : Nor) (off len : Nat) (h : l <+: d.stored) :
    l <+: ((norDriver size).erase d off len).2.stored := by
  have hsame : l <+: (d.erased ++ d.done) ++ [] := by
    rw [List.append_nil]
    exact h
  apply erase_cases (P := fun r => l <+: r.2.stored)
  · exact fun _ => h
  · exact fun _ => hsame
  · exact fun _ _ _ => hsame
  · exact fun _ _ _ => hsame

/-- With the power on a write either fails or stores its records. -/
theorem Live.write_done (h : d.Live) {off : Nat} {recs : List Rec}
    (hroom : off + 16 * recs.length ≤ size) :
    (d.write size off recs).2.failed = false →
      (d.write size off recs).2.stored = d.stored ++ recs := by
  apply write_cases (P := fun r => r.2.failed = false → r.2.stored = d.stored ++ recs)
  · rintro (hdead | hrange)
    · exact absurd hdead (by simp [h.dead])
    · omega
  · exact fun _ _ => (List.append_assoc ..).symm
  · exact fun n hnext => absurd hnext (h.next_ne n)
  · intro n _ hfailed
    cases hfailed

theorem Live.erase_done (h : d.Live) {off len : Nat} (hroom : off + len ≤ size) :
    (d.erase size off len).2.failed = false →
      (d.erase size off len).1 = true ∧ (d.erase size off len).2.stored = d.stored := by
  apply erase_cases (P := fun r => r.2.failed = false → r.1 = true ∧ r.2.stored = d.stored)
  · rintro (hdead | hrange)
    · exact absurd hdead (by simp [h.dead])
    · omega
  · exact fun _ _ => ⟨rfl, List.append_nil _⟩
  · exact fun n hnext => absurd hnext (h.next_ne n)
  · intro n _ _ hfailed
    cases hfailed

end Nor

namespace Log

variable {size : Nat} {s : Log Nor}

theorem appendAt_done (hlive : s.flash.Live) {recs : List Rec}
    (hroom : s.writeOff + 16 * recs.length ≤ size)
    (hfailed : (s.appendAt (norDriver size) recs).flash.failed = false) :
    written (s.appendAt (norDriver size) recs).ops = written s.ops ++ recs ∧
      (s.appendAt (norDriver size) recs).flash.stored = s.flash.stored ++ recs := by
  rw [appendAt_flash] at hfailed ⊢
  rw [appendAt_ops, written_write]
  exact ⟨rfl, hlive.write_done hroom hfailed⟩

/-- A batch that is appended without a failure is stored. -/
theorem flashAppend_done (hpart : s.part = some size) (hlive : s.flash.Live) {recs : List Rec}
    (hlen : 16 * recs.length ≤ size)
    (hfailed : (s.flashAppend (norDriver size) recs).flash.failed = false) :
    written (s.flashAppend (norDriver size) recs).ops = written s.ops ++ recs ∧
      (s.flashAppend (norDriver size) recs).flash.stored = s.flash.stored ++ recs := by
  unfold flashAppend at hfailed ⊢
  rw [hpart] at hfailed ⊢
  dsimp only at hfailed ⊢
  split_ifs at hfailed ⊢ with hempty hfull hok
  · rw [hempty, List.append_nil, List.append_nil]
    exact ⟨rfl, rfl⟩
  · have herase : (s.flash.erase size 0 size).2.failed = false := by
      by_contra hfail
      rw [Bool.not_eq_false] at hfail
      have hstill : ((s.flash.erase size 0 size).2.write size 0 recs).2.failed = true :=
        Nor.failed_write _ 0 recs hfail
      rw [appendAt_flash] at hfailed
      exact absurd (hstill.symm.trans hfailed) (by simp)
    have hkept := (hlive.erase_done (by omega) herase).2
    have hlive' : (s.flash.erase size 0 size).2.Live := Nor.live_erase _ 0 size hlive
    have hroom : 0 + 16 * recs.length ≤ size := by omega
    obtain ⟨hwritten, hstored⟩ := appendAt_done
      (s := { (s.partitionErase (norDriver size) 0 size).2 with writeOff := 0 }) hlive'
      hroom hfailed
    refine ⟨?_, ?_⟩
    · rw [hwritten]
      exact congrArg (fun l => l ++ recs) (written_erase 0 size s.ops)
    · rw [hstored]
      exact congrArg (fun l => l ++ recs) hkept
  · have hdone := (hlive.erase_done (by omega) hfailed).1
    exact absurd hdone hok
  · refine appendAt_done hlive ?_ hfailed
    simp only [REC_BYTES] at hfull
    omega

end Log

/-! ### Runs -/

/-- A partition that holds a journal. -/
structure JournalFlash (P : Partition) where
  mem : Mem
  used : ∃ n, Journal P.size mem n []

/-- What befalls an operation of the drain: it may return an error, with so many of its
bytes or sectors done. -/
def Outcome.ofFault : Option Nat → Outcome
  | none => .ok
  | some n => .fail n

inductive DrainAct (F : Type) where
  | ring (act : RingAct)
  | clear (st : KartStatus F) (busy : Bool) (nowUs : Int) (reset : UInt32)

def Log.withPlan (s : Log Nor) (plan : List Outcome) : Log Nor :=
  { s with flash := { s.flash with plan := plan } }

section Runs

variable {F : Type} [CFloat F] (P : Partition)

/-- The whole of `clear`.  The faults are those of the drain, and so are the operations
that `ops` records. -/
def Log.clearCalm (s : Log Nor) (st : KartStatus F) (busy : Bool) (nowUs : Int)
    (reset : UInt32) : Log Nor :=
  let cleared := ((s.withPlan []).clear (norDriver P.size) st busy nowUs reset).1
  { cleared.withPlan s.flash.plan with ops := s.ops }

/-- `clear` waits for the mutex while the drain holds it. -/
def RingSystem.clearStep (s : RingSystem Nor) (st : KartStatus F) (busy : Bool) (nowUs : Int)
    (reset : UInt32) : RingSystem Nor :=
  match s.drain with
  | .idle => { s with log := s.log.clearCalm P st busy nowUs reset }
  | _ => s

def RingSystem.faultyStep (s : RingSystem Nor) : DrainAct F → RingSystem Nor
  | .ring act => s.step (norDriver P.size) act
  | .clear st busy nowUs reset => s.clearStep P st busy nowUs reset

/-- The log after `init`. -/
def JournalFlash.boot {P : Partition} (flash : JournalFlash P) (nowUs : Int) (reset : UInt32) :
    Log Nor :=
  (Log.boot { Nor.fresh with mem := flash.mem }).init (norDriver P.size) (some P.size) nowUs reset

def faultyRun {P : Partition} (flash : JournalFlash P) (nowUs : Int) (reset : UInt32)
    (faults : List (Option Nat)) (acts : List (DrainAct F)) : RingSystem Nor :=
  acts.foldl (RingSystem.faultyStep P)
    (RingSystem.start ((flash.boot nowUs reset).withPlan (faults.map Outcome.ofFault)))

/-- Every accepted event waits in its slot or is released, which only happens when its
record was written completely; what was written since the last erase request is read back,
and nothing was programmed over. -/
structure NothingLost (s : RingSystem Nor) : Prop where
  pending : s.log.stats.2 = s.accepted.length - s.released
  waits : ∀ i, s.released ≤ i → ∀ p, s.accepted[i]? = some p → s.log.ring (i % RING_N) = p
  stored : ((s.accepted.take s.released).map (PendingRec.record s.log.bootSeq)).Sublist
    s.log.flash.stored
  recovered : Recovered P s.log

/-! ### The invariant -/

/-- What holds as long as nothing has failed, with the records `base` written before. -/
structure Faultless (base : List Rec) (s : RingSystem Nor) : Prop where
  ring : RingInv base s
  sound : s.log.Sound P.size
  stored : (written s.log.ops).Sublist s.log.flash.stored

structure FaultInv (base : List Rec) (s : RingSystem Nor) : Prop where
  live : s.log.flash.Live
  part : s.log.part = some P.size
  faultless : s.log.flash.failed = false → Faultless P base s

variable {P} {base : List Rec} {s : RingSystem Nor}

/-- A step that leaves the flash, the offset and the trace alone. -/
theorem FaultInv.frame (h : FaultInv P base s) {s' : RingSystem Nor}
    (hflash : s'.log.flash = s.log.flash) (hoff : s'.log.writeOff = s.log.writeOff)
    (hpart : s'.log.part = s.log.part) (hops : s'.log.ops = s.log.ops)
    (hring : RingInv base s → RingInv base s') : FaultInv P base s' := by
  refine ⟨hflash ▸ h.live, hpart.trans h.part, fun hfailed => ?_⟩
  rw [hflash] at hfailed
  obtain ⟨hinv, hsound, hstored⟩ := h.faultless hfailed
  refine ⟨hring hinv, ?_, ?_⟩
  · rw [Log.Sound, hflash, hoff]
    exact hsound
  · rw [hflash, hops]
    exact hstored

/-- A push leaves the partition to the drain. -/
theorem FaultInv.pushStep (h : FaultInv P base s) (nowUs : Int) :
    FaultInv P base (s.pushStep nowUs) := by
  have hlog : (s.pushStep nowUs).log.flash = s.log.flash ∧
      (s.pushStep nowUs).log.writeOff = s.log.writeOff ∧
      (s.pushStep nowUs).log.part = s.log.part ∧ (s.pushStep nowUs).log.ops = s.log.ops := by
    unfold RingSystem.pushStep
    cases s.push with
    | entered ev data => dsimp only; split_ifs <;> exact ⟨rfl, rfl, rfl, rfl⟩
    | loaded ev data head => dsimp only; split_ifs <;> exact ⟨rfl, rfl, rfl, rfl⟩
    | _ => exact ⟨rfl, rfl, rfl, rfl⟩
  obtain ⟨hflash, hoff, hpart, hops⟩ := hlog
  exact h.frame hflash hoff hpart hops fun hring => hring.pushStep nowUs

/-- A batch fits a sector. -/
theorem batch_room (h : RingInv base s) {tail : UInt32} {batch : List Rec}
    (hpc : s.drain = .append tail batch) : 16 * batch.length ≤ P.size := by
  have hdrain := h.drain
  rw [hpc] at hdrain
  have hcopied : Copied s.log.bootSeq s.accepted s.released tail batch := hdrain
  have hle := hcopied.le
  have hroom := h.room
  have hsector := Nat.le_of_dvd P.pos P.aligned
  simp only [RING_N, SECTOR] at hroom hsector
  omega

/-- The batch of a valid copy is valid. -/
theorem batch_valid (h : RingInv base s) {tail : UInt32} {batch : List Rec}
    (hpc : s.drain = .append tail batch) : ∀ r ∈ batch, recValid r = true := by
  have hdrain := h.drain
  rw [hpc] at hdrain
  have hcopied : Copied s.log.bootSeq s.accepted s.released tail batch := hdrain
  intro r hr
  rw [hcopied.batch_eq] at hr
  obtain ⟨p, -, rfl⟩ := List.mem_map.mp hr
  exact mkRec_valid ..

/-- Appending a batch: done, or a failure that is not forgotten. -/
theorem FaultInv.append (h : FaultInv P base s) {tail : UInt32} {batch : List Rec}
    (hpc : s.drain = .append tail batch) :
    FaultInv P base (s.drainStep (norDriver P.size)) := by
  have hstep : s.drainStep (norDriver P.size) =
      { s with
        log := s.log.flashAppend (norDriver P.size) batch
        drain := .release tail batch.length } := by
    rw [RingSystem.drainStep, hpc]
  have hlive := Log.flashAppend_keeps (norDriver P.size) Nor.live_write Nor.live_erase h.live batch
  have hpart := (Log.flashAppend_sameRam (norDriver P.size) s.log batch).part
  refine ⟨hstep ▸ hlive, hstep ▸ hpart.trans h.part, fun hfailed => ?_⟩
  have hbefore : s.log.flash.failed = false := by
    by_contra hfail
    rw [Bool.not_eq_false] at hfail
    have hstill := Log.flashAppend_keeps (P := fun d => d.failed = true) (norDriver P.size)
      Nor.failed_write Nor.failed_erase hfail batch
    rw [hstep] at hfailed
    exact absurd (hstill.symm.trans hfailed) (by simp)
  obtain ⟨hring, hsound, hstored⟩ := h.faultless hbefore
  have hfailed' : (s.log.flashAppend (norDriver P.size) batch).flash.failed = false := by
    rw [hstep] at hfailed
    exact hfailed
  obtain ⟨hwritten, hmore⟩ := Log.flashAppend_done h.part h.live (batch_room hring hpc) hfailed'
  refine ⟨hring.drainStep _ ?_, ?_, ?_⟩
  · intro tail' batch' hpc'
    obtain ⟨rfl, rfl⟩ : tail' = tail ∧ batch' = batch := by
      rw [hpc] at hpc'
      injection hpc' with htail hbatch
      exact ⟨htail.symm, hbatch.symm⟩
    exact hwritten
  · rw [hstep]
    exact Log.flashAppend_sound P.aligned h.part hsound (batch_valid hring hpc)
  · rw [hstep]
    change (written (s.log.flashAppend (norDriver P.size) batch).ops).Sublist _
    rw [hwritten, hmore]
    exact hstored.append (List.Sublist.refl _)

/-- The other steps of the drain leave the partition alone. -/
theorem FaultInv.drainStep (h : FaultInv P base s) :
    FaultInv P base (s.drainStep (norDriver P.size)) := by
  by_cases happend : ∃ tail batch, s.drain = .append tail batch
  · obtain ⟨tail, batch, hpc⟩ := happend
    exact h.append hpc
  · have hlog : (s.drainStep (norDriver P.size)).log.flash = s.log.flash ∧
        (s.drainStep (norDriver P.size)).log.writeOff = s.log.writeOff ∧
        (s.drainStep (norDriver P.size)).log.part = s.log.part ∧
        (s.drainStep (norDriver P.size)).log.ops = s.log.ops := by
      unfold RingSystem.drainStep
      cases hpc : s.drain with
      | append tail batch => exact absurd ⟨tail, batch, hpc⟩ happend
      | loop tail head batch => dsimp only; split_ifs <;> exact ⟨rfl, rfl, rfl, rfl⟩
      | _ => exact ⟨rfl, rfl, rfl, rfl⟩
    obtain ⟨hflash, hoff, hpart, hops⟩ := hlog
    refine h.frame hflash hoff hpart hops fun hring => hring.drainStep _ ?_
    intro tail batch hpc
    exact absurd ⟨tail, batch, hpc⟩ happend

theorem RingInv.sameRam (h : RingInv base s) {log : Log Nor} (hram : Log.SameRam s.log log)
    (hops : log.ops = s.log.ops) : RingInv base { s with log := log } := by
  obtain ⟨part, writeOff, bootSeq, ring, head, tail, flash, ops⟩ := log
  obtain ⟨hring, hhead, htail, hboot, hpart⟩ := hram
  dsimp only at hring hhead htail hboot hpart hops
  subst hring hhead htail hboot hpart hops
  exact ⟨h.part, h.head, h.tail, h.order, h.room, h.holds, h.push, h.drain, h.written⟩

theorem Log.Sound.withPlan {log : Log Nor} {size : Nat} (h : log.Sound size)
    (plan : List Outcome) : (log.withPlan plan).Sound size := by
  intro hclean
  obtain ⟨n, hholds, hoff⟩ := h ⟨hclean.halfErased, hclean.failed⟩
  exact ⟨n, ⟨hholds.overwrote, hholds.journal⟩, hoff⟩

theorem FaultInv.cleared (h : FaultInv P base s) (st : KartStatus F) (busy : Bool)
    (nowUs : Int) (reset : UInt32) :
    FaultInv P base { s with log := s.log.clearCalm P st busy nowUs reset } := by
  have hcalm : (s.log.withPlan []).flash.Live :=
    ⟨h.live.dead, h.live.halfErased, fun _ => List.not_mem_nil⟩
  have hlive := Log.clear_keeps (norDriver P.size) Nor.live_write Nor.live_erase
    (s := s.log.withPlan []) hcalm st busy nowUs reset
  have hram := Log.clear_sameRam (norDriver P.size) (s.log.withPlan []) st busy nowUs reset
  refine ⟨⟨hlive.dead, hlive.halfErased, h.live.plan⟩, hram.part.trans h.part, ?_⟩
  intro hfailed
  have hbefore : s.log.flash.failed = false := by
    by_contra hfail
    rw [Bool.not_eq_false] at hfail
    have hstill := Log.clear_keeps (P := fun d => d.failed = true) (norDriver P.size)
      Nor.failed_write Nor.failed_erase (s := s.log.withPlan []) hfail st busy nowUs reset
    exact absurd (hstill.symm.trans hfailed) (by simp)
  obtain ⟨hring, hsound, hstored⟩ := h.faultless hbefore
  refine ⟨?_, ?_, ?_⟩
  · apply hring.sameRam
    · exact ⟨hram.ring, hram.head, hram.tail, hram.bootSeq, hram.part⟩
    · rfl
  · have hpart : (s.log.withPlan []).part = none ∨ (s.log.withPlan []).part = some P.size :=
      Or.inr h.part
    exact (Log.clear_sound P.aligned hpart (hsound.withPlan []) st busy nowUs reset).withPlan _
  · have hgrown := Log.clear_keeps (P := fun d => s.log.flash.stored <+: d.stored)
      (norDriver P.size) Nor.stored_write Nor.stored_erase (s := s.log.withPlan [])
      (List.prefix_refl _) st busy nowUs reset
    exact hstored.trans hgrown.sublist

theorem FaultInv.clearStep (h : FaultInv P base s) (st : KartStatus F) (busy : Bool)
    (nowUs : Int) (reset : UInt32) : FaultInv P base (s.clearStep P st busy nowUs reset) := by
  unfold RingSystem.clearStep
  split
  · exact h.cleared st busy nowUs reset
  · exact h

theorem FaultInv.step (h : FaultInv P base s) (act : DrainAct F) :
    FaultInv P base (s.faultyStep P act) := by
  cases act with
  | ring act =>
    cases act with
    | call ev data =>
      simp only [RingSystem.faultyStep, RingSystem.step]
      cases hpc : s.push with
      | idle => exact h.frame rfl rfl rfl rfl fun hring => hring.movePush trivial
      | _ => exact h
    | push nowUs => exact h.pushStep nowUs
    | drain => exact h.drainStep
  | clear st busy nowUs reset => exact h.clearStep st busy nowUs reset

/-! ### The start, and runs -/

/-- The flash of a log that boots on a journal. -/
theorem live_boot (flash : JournalFlash P) (nowUs : Int) (reset : UInt32) :
    (flash.boot nowUs reset).flash.Live := by
  refine Log.init_keeps (norDriver P.size) Nor.live_write Nor.live_erase ?_ _ nowUs reset
  exact ⟨rfl, rfl, fun _ => List.not_mem_nil⟩

theorem sound_boot (flash : JournalFlash P) (nowUs : Int) (reset : UInt32) :
    (flash.boot nowUs reset).Sound P.size := by
  refine Log.init_sound P.aligned (fun _ => ?_) nowUs reset
  obtain ⟨n, hjournal⟩ := flash.used
  exact ⟨n, rfl, hjournal⟩

/-- The Boot record is stored. -/
theorem stored_boot (flash : JournalFlash P) (nowUs : Int) (reset : UInt32) :
    written (flash.boot nowUs reset).ops = (flash.boot nowUs reset).flash.stored := by
  have hsteady := Log.init_keeps (norDriver P.size) Nor.steady_write Nor.steady_erase
    (s := Log.boot { Nor.fresh with mem := flash.mem }) ⟨rfl, fun _ => List.not_mem_nil⟩
    (some P.size) nowUs reset
  have hsector := Nat.le_of_dvd P.pos P.aligned
  have hlive : ({ Nor.fresh with mem := flash.mem } : Nor).Live :=
    ⟨rfl, rfl, fun _ => List.not_mem_nil⟩
  unfold JournalFlash.boot
  unfold Log.init at hsteady ⊢
  dsimp only at hsteady ⊢
  obtain ⟨hwritten, hstored⟩ := Log.flashAppend_done (by rfl) hlive
    (by rw [List.length_singleton]; simp only [SECTOR] at hsector; omega) hsteady.failed
  rw [hwritten, hstored]
  rfl

theorem FaultInv.start (flash : JournalFlash P) (nowUs : Int) (reset : UInt32)
    (faults : List (Option Nat)) :
    FaultInv P (written (flash.boot nowUs reset).ops)
      (RingSystem.start ((flash.boot nowUs reset).withPlan (faults.map Outcome.ofFault))) := by
  have hlive := live_boot flash nowUs reset
  have hpart : (flash.boot nowUs reset).part = some P.size := (Log.flashAppend_sameRam _ _ _).part
  refine ⟨⟨hlive.dead, hlive.halfErased, ?_⟩, hpart, fun _ => ⟨?_, ?_, ?_⟩⟩
  · intro n hmem
    obtain ⟨fault, -, hfault⟩ := List.mem_map.mp hmem
    cases fault <;> cases hfault
  · refine RingInv.start ((flash.boot nowUs reset).withPlan (faults.map Outcome.ofFault)) ?_
    exact fun hnone => absurd (hpart.symm.trans hnone) (by simp)
  · exact (sound_boot flash nowUs reset).withPlan _
  · change (written (flash.boot nowUs reset).ops).Sublist (flash.boot nowUs reset).flash.stored
    rw [stored_boot]

theorem FaultInv.run (h : FaultInv P base s) (acts : List (DrainAct F)) :
    FaultInv P base (acts.foldl (RingSystem.faultyStep P) s) := by
  induction acts generalizing s with
  | nil => exact h
  | cons act acts ih => exact ih (h.step act)

theorem FaultInv.nothingLost (h : FaultInv P base s) (hfailed : s.log.flash.failed = false) :
    NothingLost P s := by
  obtain ⟨hring, hsound, hstored⟩ := h.faultless hfailed
  refine ⟨hring.count, hring.holds, ?_, ?_⟩
  · rw [hring.written] at hstored
    have hgrown : ((s.accepted.take s.released).map (PendingRec.record s.log.bootSeq)).Sublist
        ((s.accepted.take (s.drain.appended s.released)).map
          (PendingRec.record s.log.bootSeq)) :=
      ((List.take_prefix_take_left (le_appended s.drain s.released)).sublist).map _
    exact (hgrown.trans (List.sublist_append_right _ _)).trans hstored
  · refine hsound.recovered P ⟨h.live.halfErased, hfailed⟩ h.live.dead ?_
    simp [h.part]

/-- **A drain whose operations succeed loses no event**, however `push`, the drain and
`clear` interleave: in every run in which no write and no erase of the drain has failed. -/
theorem nothing_lost (flash : JournalFlash P) (nowUs : Int) (reset : UInt32)
    (faults : List (Option Nat)) (acts : List (DrainAct F))
    (hfailed : (faultyRun flash nowUs reset faults acts).log.flash.failed = false) :
    NothingLost P (faultyRun flash nowUs reset faults acts) :=
  ((FaultInv.start flash nowUs reset faults).run acts).nothingLost hfailed

/-- An accepted event waits in its slot, or its record is read back unless a later erase of
the partition was requested. -/
theorem NothingLost.event (h : NothingLost P s) {i : Nat} {p : PendingRec}
    (hp : s.accepted[i]? = some p) :
    (s.released ≤ i ∧ s.log.ring (i % RING_N) = p) ∨
      p.record s.log.bootSeq ∈ s.log.readAt (norDriver P.size) 0 s.log.stats.1 ∨
      p.record s.log.bootSeq ∈ s.log.flash.erased := by
  rcases Nat.lt_or_ge i s.released with hlt | hge
  · right
    have htaken : p ∈ s.accepted.take s.released := by
      apply List.mem_of_getElem? (i := i)
      rw [List.getElem?_take_of_lt hlt, hp]
    have hmem := h.stored.subset (List.mem_map_of_mem htaken)
    rcases List.mem_append.mp hmem with herased | hdone
    · exact Or.inr herased
    · exact Or.inl ((h.recovered.kept _ le_rfl).subset hdone)
  · exact Or.inl ⟨hge, h.waits i hge p hp⟩

/-- What a history leaves on the partition, with no erase cut midway. -/
def JournalFlash.ofHistory (w : Nat → FlashEvent F) (n : Nat)
    (hhalf : ((flashHistory P).stateAt w n).flash.halfErased = false) : JournalFlash P where
  mem := ((flashHistory P).stateAt w n).flash.mem
  used := by
    have h := flashHistory_inv P w n
    obtain ⟨slots, hholds, -⟩ := h.sound ⟨hhalf, h.failed⟩
    exact ⟨slots, hholds.journal.forget⟩

end Runs

/-! ### On the bench -/

def blankFlash : JournalFlash twoSectors where
  mem _ := 0xFF
  used := ⟨0, .empty fun _ _ _ => rfl⟩

/-- An event is pushed and the ring is drained. -/
def pushAndDrain (ev : Ev) (data : UInt32) (nowUs : Int) : List (DrainAct Float32) :=
  .ring (.call ev data) :: List.replicate 6 (.ring (.push nowUs)) ++
    List.replicate 13 (.ring .drain)

/-- An event comes while the drain has read the first one, the partition is cleared behind
them, and one more event follows. -/
def threeEvents : List (DrainAct Float32) :=
  .ring (.call .arm 0) :: List.replicate 6 (.ring (.push 2000000)) ++
    List.replicate 4 (.ring .drain) ++
    .ring (.call .disarm 3) :: List.replicate 6 (.ring (.push 5000000)) ++
    List.replicate 24 (.ring .drain) ++
    .clear .initial false 6000000 1 :: pushAndDrain .arm 0 7000000

theorem nothing_lost_bench :
    (faultyRun blankFlash 1000 1 [none, none] threeEvents).accepted =
        [⟨Ev.arm.code, 2000, 0⟩, ⟨Ev.disarm.code, 5000, 3⟩, ⟨Ev.arm.code, 7000, 0⟩] ∧
      NothingLost twoSectors (faultyRun blankFlash 1000 1 [none, none] threeEvents) :=
  ⟨by decide +kernel, nothing_lost blankFlash 1000 1 [none, none] threeEvents (by decide +kernel)⟩

/-- The write of the first batch fails with nothing done. -/
def unwritten : RingSystem Nor :=
  faultyRun blankFlash 1000 1 [some 0] (pushAndDrain .arm 0 2000000)

/-- It fails after four bytes, and the next batch is written. -/
def halfWritten : RingSystem Nor :=
  faultyRun blankFlash 1000 1 [some 4]
    (pushAndDrain .arm 0 2000000 ++ pushAndDrain .disarm 3 5000000)

/-- The event of the failed write is neither in the ring nor on the flash; and the one that
is written after it is programmed over the bytes left behind, and is not read back. -/
theorem failed_write_loses_events :
    (unwritten.log.stats.2 = 0 ∧ unwritten.accepted = [⟨Ev.arm.code, 2000, 0⟩] ∧
        mkRec Ev.arm.code 1 2000 0 ∉ unwritten.log.flash.stored ∧
        mkRec Ev.arm.code 1 2000 0 ∉
          unwritten.log.readAt (norDriver twoSectors.size) 0 unwritten.log.stats.1) ∧
      (mkRec Ev.disarm.code 1 5000 3 ∈ halfWritten.log.flash.done ∧
        mkRec Ev.disarm.code 1 5000 3 ∉
          halfWritten.log.readAt (norDriver twoSectors.size) 0 halfWritten.log.stats.1) ∧
      ¬ NothingLost twoSectors unwritten ∧ ¬ NothingLost twoSectors halfWritten := by
  have hunwritten : unwritten.log.stats.2 = 0 ∧
      unwritten.accepted = [⟨Ev.arm.code, 2000, 0⟩] ∧
      mkRec Ev.arm.code 1 2000 0 ∉ unwritten.log.flash.stored ∧
      mkRec Ev.arm.code 1 2000 0 ∉
        unwritten.log.readAt (norDriver twoSectors.size) 0 unwritten.log.stats.1 := by
    decide +kernel
  have hhalf : mkRec Ev.disarm.code 1 5000 3 ∈ halfWritten.log.flash.done ∧
      mkRec Ev.disarm.code 1 5000 3 ∉
        halfWritten.log.readAt (norDriver twoSectors.size) 0 halfWritten.log.stats.1 := by
    decide +kernel
  refine ⟨hunwritten, hhalf, fun h => ?_, fun h => ?_⟩
  · have hreleased : ((unwritten.accepted.take unwritten.released).map
        (PendingRec.record unwritten.log.bootSeq)) = [mkRec Ev.arm.code 1 2000 0] := by
      decide +kernel
    have hstored := h.stored
    rw [hreleased] at hstored
    exact hunwritten.2.2.1 (hstored.subset List.mem_cons_self)
  · exact hhalf.2 ((h.recovered.kept _ le_rfl).subset hhalf.1)

end evlog

end KartFirmware

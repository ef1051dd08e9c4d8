import KartFirmware.NorDriver

/-!
# Recovery after a power cut

The journal over any history of boots, drains and clears, with the power cut at any
byte of a write and any sector of an erase.  Every operation on the log keeps a journal
on the partition and, while the power is on, the append point behind its last used slot
(`evlog.Log.Sound`).

One cut breaks it: an erase that has done some sectors and left used slots behind them.
`init` then takes the first blank slot for the append point, with old records ahead.
-/

set_option linter.unusedSectionVars false

namespace KartFirmware

namespace evlog

open NorFlash

structure Partition where
  size : Nat
  aligned : SECTOR ∣ size
  pos : 0 < size

/-! ### The operations keep a journal -/

namespace Log

/-- The partition holds a journal, and is appended to behind its used slots. -/
def Sound (size : Nat) (s : Log Nor) : Prop :=
  s.flash.Clean → ∃ n, s.flash.Holds size n ∧ (s.flash.dead = false → s.writeOff = 16 * n)

variable {size : Nat} {s : Log Nor}

theorem appendAt_flash (recs : List Rec) :
    (s.appendAt (norDriver size) recs).flash = (s.flash.write size s.writeOff recs).2 := by
  unfold appendAt
  dsimp only
  split_ifs <;> rfl

theorem appendAt_writeOff (recs : List Rec) :
    (s.appendAt (norDriver size) recs).writeOff =
      if (s.flash.write size s.writeOff recs).1 then s.writeOff + 16 * recs.length
      else s.writeOff := by
  unfold appendAt
  dsimp only
  split_ifs with hok hok' hok'
  · rw [Nat.mul_comm 16]
    rfl
  · exact absurd hok hok'
  · exact absurd hok' hok
  · rfl

theorem appendAt_sound (h : s.Sound size) {recs : List Rec}
    (hrecs : ∀ r ∈ recs, recValid r = true) : (s.appendAt (norDriver size) recs).Sound size := by
  intro hclean
  rw [appendAt_flash] at hclean
  obtain ⟨n, hholds, hoff⟩ := h (Nor.clean_of_write hclean)
  cases hdead : s.flash.dead with
  | true =>
    have hnone : s.flash.write size s.writeOff recs = (false, s.flash) := by
      rw [Nor.write, if_pos hdead]
    refine ⟨n, ?_, ?_⟩
    · rw [appendAt_flash, hnone]
      exact hholds
    · rw [appendAt_flash, hnone, hdead]
      exact fun halive => absurd halive (by simp)
  | false =>
    have hpoint := hoff hdead
    rw [hpoint] at hclean
    obtain ⟨n', hholds', hslots⟩ := hholds.write hrecs hclean
    refine ⟨n', ?_, ?_⟩
    · rw [appendAt_flash, hpoint]
      exact hholds'
    · rw [appendAt_flash, appendAt_writeOff, hpoint]
      intro halive
      rw [hslots halive]
      split_ifs <;> omega

/-- The partition was erased: the journal starts again. -/
theorem erased_sound (hsize : SECTOR ∣ size) (h : s.Sound size)
    (hok : (s.partitionErase (norDriver size) 0 size).1 = true) :
    Sound size { (s.partitionErase (norDriver size) 0 size).2 with writeOff := 0 } := by
  intro hclean
  obtain ⟨n, hholds, -⟩ := h (Nor.clean_of_erase hclean)
  obtain ⟨n', hholds', hslots⟩ := hholds.erase hsize hclean
  refine ⟨n', hholds', fun halive => ?_⟩
  have hdone : (s.flash.erase size 0 size).1 = true := hok
  have hnone := hslots halive
  rw [hdone, if_pos rfl] at hnone
  rw [hnone]

theorem refused_sound (hsize : SECTOR ∣ size) (h : s.Sound size)
    (hok : ¬ (s.partitionErase (norDriver size) 0 size).1 = true) :
    Sound size (s.partitionErase (norDriver size) 0 size).2 := by
  intro hclean
  obtain ⟨n, hholds, hoff⟩ := h (Nor.clean_of_erase hclean)
  obtain ⟨n', hholds', hslots⟩ := hholds.erase hsize hclean
  refine ⟨n', hholds', fun halive => ?_⟩
  have hrefused : ¬ (s.flash.erase size 0 size).1 = true := hok
  have hkeep := hslots halive
  rw [if_neg hrefused] at hkeep
  rw [hkeep]
  exact hoff (Nor.alive_of_erase halive)

theorem flashAppend_sound (hsize : SECTOR ∣ size) (hpart : s.part = some size) (h : s.Sound size)
    {recs : List Rec} (hrecs : ∀ r ∈ recs, recValid r = true) :
    (s.flashAppend (norDriver size) recs).Sound size := by
  unfold flashAppend
  rw [hpart]
  dsimp only
  split_ifs with hempty hfull hok
  · exact h
  · exact appendAt_sound (erased_sound hsize h hok) hrecs
  · exact refused_sound hsize h hok
  · exact appendAt_sound h hrecs

theorem collect_valid (n : Nat) (tail : UInt32) :
    ∀ r ∈ (s.collect n tail).1, recValid r = true :=
  collect_forall s (fun code tMs data => mkRec_valid code s.bootSeq tMs data) n tail

theorem drainTurns_sound (hsize : SECTOR ∣ size) (fuel : Nat) (hpart : s.part = some size)
    (h : s.Sound size) : (s.drainTurns (norDriver size) fuel).Sound size := by
  have hrun : (s.drainTurns (norDriver size) fuel).part = some size ∧
      (s.drainTurns (norDriver size) fuel).Sound size := by
    apply drainTurns_induction (norDriver size) s (P := fun t => t.part = some size ∧ t.Sound size)
    · rintro t ⟨ht, hsound⟩ -
      have hkeep := (flashAppend_sameRam (norDriver size) t (t.collect 16 t.tail).1).part
      have happend := flashAppend_sound hsize ht hsound (collect_valid (s := t) 16 t.tail)
      exact ⟨hkeep.trans ht, happend⟩
    · exact ⟨hpart, h⟩
  exact hrun.2

theorem boot_valid {boot : UInt16} {tMs reset : UInt32} :
    ∀ r ∈ [mkRec Ev.boot.code boot tMs reset], recValid r = true := by
  intro r hr
  rw [List.mem_singleton.mp hr]
  exact mkRec_valid ..

variable {F : Type}

theorem maintain_sound (hsize : SECTOR ∣ size) (hpart : s.part = none ∨ s.part = some size)
    (h : s.Sound size) (st : KartStatus F) (busy : Bool) :
    (s.maintain (norDriver size) st busy).Sound size := by
  unfold maintain
  split_ifs with hnone
  · exact h
  · exact h
  · exact h
  · exact drainTurns_sound hsize _ (hpart.resolve_left hnone) h

theorem clear_sound (hsize : SECTOR ∣ size) (hpart : s.part = none ∨ s.part = some size)
    (h : s.Sound size) (st : KartStatus F) (busy : Bool) (nowUs : Int) (reset : UInt32) :
    (s.clear (norDriver size) st busy nowUs reset).1.Sound size := by
  unfold clear
  rcases hpart with hpart | hpart
  · rw [hpart]
    exact h
  · rw [hpart]
    dsimp only
    split_ifs with hseen hok
    · exact h
    · refine flashAppend_sound hsize ?_ (erased_sound hsize h hok) boot_valid
      exact hpart
    · exact refused_sound hsize h hok

/-! ### The scan -/

/-- The scan goes on behind a used slot. -/
theorem scan_used {n i : Nat} {done : List Rec} (h : Journal size s.flash.mem n done) (hi : i < n)
    (hfits : 16 * i + 16 ≤ size) (fuel : Nat) (last : UInt16) :
    s.scan (norDriver size) (fuel + 1) (16 * i) last =
      s.scan (norDriver size) fuel (16 * (i + 1))
        (if recValid (decodeRec s.flash.mem (16 * i)) = true ∧
            (decodeRec s.flash.mem (16 * i)).head.toUInt16 ≥ last then
          (decodeRec s.flash.mem (16 * i)).head.toUInt16
        else last) := by
  have hread : (norDriver size).read s.flash (16 * i) = some (decodeRec s.flash.mem (16 * i)) :=
    if_pos (by omega)
  rw [scan, hread]
  exact if_neg (h.used i hi)

/-- It stops at the first slot that is not used. -/
theorem scan_end {n : Nat} {done : List Rec} (h : Journal size s.flash.mem n done)
    (hfits : 16 * n + 16 ≤ size) (fuel : Nat) (last : UInt16) :
    s.scan (norDriver size) (fuel + 1) (16 * n) last = (16 * n, last) := by
  have hread : (norDriver size).read s.flash (16 * n) = some (decodeRec s.flash.mem (16 * n)) :=
    if_pos (by omega)
  have hblank : (decodeRec s.flash.mem (16 * n)).head = BLANK :=
    wordAt_blank (h.blank.mono le_rfl (by omega))
  rw [scan, hread]
  exact if_pos hblank

/-- The scan stops behind the used slots. -/
theorem scan_journal {n : Nat} {done : List Rec} (h : Journal size s.flash.mem n done)
    (fuel i : Nat) (last : UInt16) (hi : i ≤ n) (hend : 16 * (i + fuel) = size) :
    (s.scan (norDriver size) fuel (16 * i) last).1 = 16 * n := by
  have hfits := h.fits
  induction fuel generalizing i last with
  | zero =>
    obtain rfl : i = n := by omega
    rfl
  | succ fuel ih =>
    rcases Nat.lt_or_eq_of_le hi with hlt | rfl
    · rw [scan_used h hlt (by omega)]
      exact ih (i + 1) _ hlt (by omega)
    · rw [scan_end h (by omega)]

/-- The boot of a partition that holds a journal. -/
theorem init_sound (hsize : SECTOR ∣ size) {d : Nor} (h : d.Clean → ∃ n, d.Holds size n)
    (nowUs : Int) (reset : UInt32) :
    ((Log.boot d).init (norDriver size) (some size) nowUs reset).Sound size := by
  refine flashAppend_sound hsize rfl ?_ boot_valid
  intro hclean
  obtain ⟨n, hholds⟩ := h hclean
  refine ⟨n, hholds, fun _ => ?_⟩
  have hslots : 16 * (0 + (size + REC_BYTES - 1) / REC_BYTES) = size := by
    simp only [REC_BYTES, SECTOR] at *
    omega
  have hscan := scan_journal (s := { Log.boot d with part := some size }) hholds.journal _ 0 0
    (Nat.zero_le n) hslots
  exact hscan

/-! ### Reading back -/

/-- From a slot on, `readAt` returns the valid records. -/
theorem readFrom_records {n : Nat} (hfits : 16 * n ≤ size) (hoff : s.writeOff = 16 * n)
    (cap idx : Nat) (hidx : idx ≤ n) (hcap : n ≤ idx + cap) :
    s.readFrom (norDriver size) cap idx =
      ((List.range' idx (n - idx)).map fun i => decodeRec s.flash.mem (16 * i)).filter recValid := by
  induction cap generalizing idx with
  | zero =>
    obtain rfl : idx = n := by omega
    rw [Nat.sub_self]
    rfl
  | succ cap ih =>
    have hslots : s.writeOff / REC_BYTES = n := by
      rw [hoff]
      exact Nat.mul_div_cancel_left n (by decide)
    rw [readFrom, hslots]
    split_ifs with hlt
    · have hread : (norDriver size).read s.flash (idx * REC_BYTES) =
          some (decodeRec s.flash.mem (16 * idx)) := by
        rw [Nat.mul_comm]
        change (if 16 * idx + 16 ≤ size then _ else _) = _
        exact if_pos (by omega)
      have hcount : n - idx = (n - (idx + 1)) + 1 := by omega
      rw [hread, hcount, List.range'_succ, List.map_cons, List.filter_cons]
      dsimp only
      rw [ih (idx + 1) hlt (by omega)]
    · obtain rfl : idx = n := by omega
      rw [Nat.sub_self]
      rfl

theorem readAt_records {n : Nat} (hpart : s.part ≠ none) (hfits : 16 * n ≤ size)
    (hoff : s.writeOff = 16 * n) {cap : Nat} (hcap : n ≤ cap) :
    s.readAt (norDriver size) 0 cap = records s.flash.mem n := by
  rw [readAt, if_neg hpart, readFrom_records hfits hoff cap 0 (Nat.zero_le n) (by omega), records,
    List.range_eq_range', Nat.sub_zero]

end Log

/-! ### Histories -/

/-- What happens to the log: the power comes (back) and `init` runs, an event is pushed,
`maintain` drains the ring, `clear` is called.  `cuts` says for each flash operation of
the call whether the power goes, and after how many bytes of a write or sectors of an
erase. -/
inductive FlashEvent (F : Type) where
  | boot (cuts : List (Option Nat)) (nowUs : Int) (reset : UInt32)
  | push (ev : Ev) (data : UInt32) (nowUs : Int)
  | maintain (cuts : List (Option Nat)) (st : KartStatus F) (busy : Bool)
  | clear (cuts : List (Option Nat)) (st : KartStatus F) (busy : Bool) (nowUs : Int)
      (reset : UInt32)

def Outcome.ofCut : Option Nat → Outcome
  | none => .ok
  | some n => .cut n

def Nor.powered (d : Nor) (cuts : List (Option Nat)) : Nor :=
  { d with dead := false, plan := cuts.map Outcome.ofCut }

def Log.powered (s : Log Nor) (cuts : List (Option Nat)) : Log Nor :=
  { s with flash := s.flash.powered cuts }

section Histories

variable {F : Type} [CFloat F] (P : Partition)

/-- One event.  Without power only a boot does anything, and nothing of the RAM outlives
it. -/
def Log.event (s : Log Nor) : FlashEvent F → Log Nor
  | .boot cuts nowUs reset =>
    (Log.boot (s.flash.powered cuts)).init (norDriver P.size) (some P.size) nowUs reset
  | .push ev data nowUs => if s.flash.dead then s else s.push ev data nowUs
  | .maintain cuts st busy =>
    if s.flash.dead then s else (s.powered cuts).maintain (norDriver P.size) st busy
  | .clear cuts st busy nowUs reset =>
    if s.flash.dead then s else ((s.powered cuts).clear (norDriver P.size) st busy nowUs reset).1

def flashHistory : Mealy.Machine (Log Nor) (FlashEvent F) Unit where
  init := Log.boot .fresh
  step s e := (s.event P e, ())

/-- What is recovered: the cells from the append point on are blank, no write has ever met
cells that were not, and every record completed since the last erase request is read back,
in order. -/
structure Recovered (s : Log Nor) : Prop where
  blank : Blank s.flash.mem s.writeOff P.size
  overwrote : s.flash.overwrote = false
  kept : ∀ cap, s.stats.1 ≤ cap → s.flash.done.Sublist (s.readAt (norDriver P.size) 0 cap)

theorem Log.Sound.recovered {s : Log Nor} (h : s.Sound P.size) (hclean : s.flash.Clean)
    (halive : s.flash.dead = false) (hpart : s.part ≠ none) : Recovered P s := by
  obtain ⟨n, hholds, hoff⟩ := h hclean
  have hpoint := hoff halive
  refine ⟨hpoint ▸ hholds.journal.blank, hholds.overwrote, fun cap hcap => ?_⟩
  have htotal : s.stats.1 = n := by
    rw [Log.stats, if_neg hpart, hpoint]
    exact Nat.mul_div_cancel_left n (by decide)
  rw [htotal] at hcap
  rw [Log.readAt_records hpart hholds.journal.fits hpoint hcap]
  exact hholds.journal.kept

/-- What holds between any two events. -/
structure HistoryInv (s : Log Nor) : Prop where
  part : s.part = none ∨ s.part = some P.size
  failed : s.flash.failed = false
  sound : s.Sound P.size

theorem steady_powered {d : Nor} (h : d.failed = false) (cuts : List (Option Nat)) :
    (d.powered cuts).Steady := by
  refine ⟨h, fun n hmem => ?_⟩
  obtain ⟨cut, -, hcut⟩ := List.mem_map.mp hmem
  cases cut <;> cases hcut

variable {P} {s : Log Nor}

theorem HistoryInv.boot (h : HistoryInv P s) (cuts : List (Option Nat)) (nowUs : Int)
    (reset : UInt32) :
    HistoryInv P
      ((Log.boot (s.flash.powered cuts)).init (norDriver P.size) (some P.size) nowUs reset) := by
  refine ⟨Or.inr ?_, ?_, ?_⟩
  · exact (Log.flashAppend_sameRam _ _ _).part
  · exact (Log.init_keeps _ Nor.steady_write Nor.steady_erase (steady_powered h.failed cuts) _
      nowUs reset).failed
  · refine Log.init_sound P.aligned (fun hclean => ?_) nowUs reset
    obtain ⟨n, hholds, -⟩ := h.sound ⟨hclean.halfErased, hclean.failed⟩
    exact ⟨n, hholds.overwrote, hholds.journal⟩

theorem HistoryInv.part_powered (h : HistoryInv P s) (cuts : List (Option Nat)) :
    (s.powered cuts).part = none ∨ (s.powered cuts).part = some P.size := h.part

/-- The call starts with the power on, as the last one ended. -/
theorem HistoryInv.sound_powered (h : HistoryInv P s) (halive : s.flash.dead = false)
    (cuts : List (Option Nat)) : (s.powered cuts).Sound P.size := by
  intro hclean
  obtain ⟨n, hholds, hoff⟩ := h.sound ⟨hclean.halfErased, hclean.failed⟩
  exact ⟨n, ⟨hholds.overwrote, hholds.journal⟩, fun _ => hoff halive⟩

theorem HistoryInv.event (h : HistoryInv P s) (e : FlashEvent F) : HistoryInv P (s.event P e) := by
  cases e with
  | boot cuts nowUs reset => exact h.boot cuts nowUs reset
  | push ev data nowUs =>
    rw [Log.event]
    split_ifs
    · exact h
    · unfold Log.push
      split_ifs <;> exact ⟨h.part, h.failed, h.sound⟩
  | maintain cuts st busy =>
    rw [Log.event]
    split_ifs with hdead
    · exact h
    · rw [Bool.not_eq_true] at hdead
      refine ⟨?_, ?_, ?_⟩
      · rw [Log.maintain_part]
        exact h.part
      · exact (Log.maintain_keeps _ Nor.steady_write Nor.steady_erase
          (steady_powered h.failed cuts) st busy).failed
      · exact Log.maintain_sound P.aligned (h.part_powered cuts) (h.sound_powered hdead cuts) st
          busy
  | clear cuts st busy nowUs reset =>
    rw [Log.event]
    split_ifs with hdead
    · exact h
    · rw [Bool.not_eq_true] at hdead
      refine ⟨?_, ?_, ?_⟩
      · rw [(Log.clear_sameRam ..).part]
        exact h.part
      · exact (Log.clear_keeps _ Nor.steady_write Nor.steady_erase
          (steady_powered h.failed cuts) st busy nowUs reset).failed
      · exact Log.clear_sound P.aligned (h.part_powered cuts) (h.sound_powered hdead cuts) st busy
          nowUs reset

theorem HistoryInv.fresh : HistoryInv P (Log.boot .fresh) := by
  refine ⟨Or.inl rfl, rfl, fun _ => ⟨0, ⟨rfl, ?_⟩, fun _ => rfl⟩⟩
  exact .empty fun _ _ _ => rfl

variable (P)

theorem flashHistory_inv (w : Nat → FlashEvent F) (n : Nat) :
    HistoryInv P ((flashHistory P).stateAt w n) :=
  (flashHistory P).stateAt_induction (fun _ s => HistoryInv P s) .fresh
    (fun _ _ h => h.event _) n

/-- **What a power cut leaves behind is recovered**, in every history in which no erase was
cut midway, whenever the log is up. -/
theorem journal_recovered (w : Nat → FlashEvent F) (n : Nat)
    (hup : ((flashHistory P).stateAt w n).part ≠ none)
    (hpower : ((flashHistory P).stateAt w n).flash.dead = false)
    (hhalf : ((flashHistory P).stateAt w n).flash.halfErased = false) :
    Recovered P ((flashHistory P).stateAt w n) := by
  have h := flashHistory_inv P w n
  exact h.sound.recovered P ⟨hhalf, h.failed⟩ hpower hup

end Histories

def twoSectors : Partition where
  size := 8192
  aligned := by decide
  pos := by decide

/-- The power goes after a record and a half. -/
def tornHistory : Nat → FlashEvent Float32
  | 0 => .boot [] 1000 1
  | 1 => .push .arm 0 2000000
  | 2 => .push .disarm 3 5000000
  | 3 => .maintain [some 24] .initial false
  | _ => .boot [] 1000 1

theorem journal_recovered_torn :
    Recovered twoSectors ((flashHistory twoSectors).stateAt tornHistory 5) :=
  journal_recovered twoSectors tornHistory 5 (by decide +kernel) (by decide +kernel)
    (by decide +kernel)

/-- The journal grows into the second sector, and the power goes when `clear` has erased
the first. -/
def halfErasedHistory (n : Nat) : FlashEvent Float32 :=
  if n = 0 then .boot [] 1000 1
  else if n ≤ 264 then
    if n % 33 = 0 then .maintain [] .initial false else .push .arm 0 n
  else if n = 265 then .clear [some 1] .initial false 0 1
  else .boot [] 1000 1

/-- The next boot appends at the start, with the old records of the second sector ahead. -/
theorem half_erased_not_recovered :
    ((flashHistory twoSectors).stateAt halfErasedHistory 267).part ≠ none ∧
      ((flashHistory twoSectors).stateAt halfErasedHistory 267).flash.dead = false ∧
      ¬ Recovered twoSectors ((flashHistory twoSectors).stateAt halfErasedHistory 267) := by
  have hstate : ((flashHistory twoSectors).stateAt halfErasedHistory 267).part = some 8192 ∧
      ((flashHistory twoSectors).stateAt halfErasedHistory 267).flash.dead = false ∧
      ((flashHistory twoSectors).stateAt halfErasedHistory 267).writeOff = 16 ∧
      ((flashHistory twoSectors).stateAt halfErasedHistory 267).flash.mem 4096 ≠ 0xFF := by
    decide +kernel
  obtain ⟨hpart, halive, hoff, hold⟩ := hstate
  refine ⟨by simp [hpart], halive, fun h => hold ?_⟩
  exact h.blank 4096 (by decide) (by omega)

end evlog

end KartFirmware

import KartFirmware.FlashFaults

/-!
# Boot numbers

The number that `init` gives to a boot, over any history of boots, drains and clears with
the power cut anywhere, against the number of the last boot that logged anything
(`evlog.lastBoot`).

The number is one more than the highest that is found on the flash.  That is the last one
as long as a record of the last boot is still there and none is numbered above it: not
when the power goes between an erase and the first record behind it, and not behind the
wrap at 65535 while older records are left (`evlog.boot_number_stuck`).
-/

set_option linter.unusedSectionVars false

namespace KartFirmware

namespace evlog

open NorFlash

/-- The boot counter of a record. -/
def Rec.boot (r : Rec) : UInt16 := r.head.toUInt16

theorem mkRec_boot (code : UInt8) (boot : UInt16) (tMs data : UInt32) :
    (mkRec code boot tMs data).boot = boot := recHead_boot code boot

/-! ### What a boot logs carries its number -/

namespace Nor

/-- The records that were completed meanwhile are of this boot. -/
def Grows (boot : UInt16) (d d' : Nor) : Prop :=
  ∃ l, d'.stored = d.stored ++ l ∧ ∀ r ∈ l, r.boot = boot

variable {boot : UInt16} {size : Nat} {d d' d'' : Nor}

theorem Grows.of_eq (h : d'.stored = d.stored) : Grows boot d d' :=
  ⟨[], by rw [h, List.append_nil], fun r hr => absurd hr (List.not_mem_nil)⟩

theorem Grows.trans (h : Grows boot d d') (h' : Grows boot d' d'') : Grows boot d d'' := by
  obtain ⟨l, heq, hl⟩ := h
  obtain ⟨l', heq', hl'⟩ := h'
  refine ⟨l ++ l', by rw [heq', heq, List.append_assoc], fun r hr => ?_⟩
  rcases List.mem_append.mp hr with hr | hr
  · exact hl r hr
  · exact hl' r hr

theorem grows_write (d : Nor) (off : Nat) {recs : List Rec} (h : ∀ r ∈ recs, r.boot = boot) :
    Grows boot d (d.write size off recs).2 := by
  have hmore : ∀ l, (∀ r ∈ l, r.boot = boot) → ∀ d' : Nor, d'.erased = d.erased →
      d'.done = d.done ++ l → Grows boot d d' := by
    intro l hl d' herased hdone
    exact ⟨l, by rw [stored, stored, herased, hdone, List.append_assoc], hl⟩
  apply write_cases (P := fun r => Grows boot d r.2)
  · exact fun _ => .of_eq rfl
  · exact fun _ => hmore recs h _ rfl rfl
  · exact fun n _ _ => hmore _ (fun r hr => h r (List.mem_of_mem_take hr)) _ rfl rfl
  · exact fun _ _ => .of_eq rfl

theorem grows_erase (d : Nor) (off len : Nat) : Grows boot d (d.erase size off len).2 := by
  have hsame : (d.erased ++ d.done) ++ [] = d.stored := List.append_nil _
  apply erase_cases (P := fun r => Grows boot d r.2)
  · exact fun _ => .of_eq rfl
  · exact fun _ => .of_eq hsame
  · exact fun _ _ _ => .of_eq hsame
  · exact fun _ _ _ => .of_eq hsame

end Nor

namespace Log

variable {size : Nat} {s : Log Nor} {boot : UInt16}

theorem appendAt_grows {recs : List Rec} (h : ∀ r ∈ recs, r.boot = boot) :
    Nor.Grows boot s.flash (s.appendAt (norDriver size) recs).flash := by
  rw [appendAt_flash]
  exact Nor.grows_write s.flash s.writeOff h

theorem flashAppend_grows {recs : List Rec} (h : ∀ r ∈ recs, r.boot = boot) :
    Nor.Grows boot s.flash (s.flashAppend (norDriver size) recs).flash := by
  unfold flashAppend
  cases s.part with
  | none => exact .of_eq rfl
  | some size' =>
    have herase : Nor.Grows boot s.flash (s.flash.erase size 0 size').2 :=
      Nor.grows_erase s.flash 0 size'
    dsimp only
    split_ifs
    · exact .of_eq rfl
    · exact herase.trans (appendAt_grows h)
    · exact herase
    · exact appendAt_grows h

theorem collect_boot (n : Nat) (tail : UInt32) :
    ∀ r ∈ (s.collect n tail).1, r.boot = s.bootSeq :=
  collect_forall s (fun code tMs data => mkRec_boot code s.bootSeq tMs data) n tail

theorem drainTurns_grows (fuel : Nat) :
    Nor.Grows s.bootSeq s.flash (s.drainTurns (norDriver size) fuel).flash ∧
      (s.drainTurns (norDriver size) fuel).bootSeq = s.bootSeq := by
  apply drainTurns_induction (norDriver size) s
    (P := fun t => Nor.Grows s.bootSeq s.flash t.flash ∧ t.bootSeq = s.bootSeq)
  · rintro t ⟨hgrows, hboot⟩ -
    have hbatch : Nor.Grows t.bootSeq t.flash
        (t.flashAppend (norDriver size) (t.collect 16 t.tail).1).flash :=
      flashAppend_grows (collect_boot 16 t.tail)
    have hsame := (flashAppend_sameRam (norDriver size) t (t.collect 16 t.tail).1).bootSeq
    exact ⟨hgrows.trans (hboot ▸ hbatch), hsame.trans hboot⟩
  · exact ⟨.of_eq rfl, rfl⟩

theorem boot_boot {code : UInt8} {tMs data : UInt32} :
    ∀ r ∈ [mkRec code boot tMs data], r.boot = boot := by
  intro r hr
  rw [List.mem_singleton.mp hr]
  exact mkRec_boot ..

variable {F : Type} [CFloat F]

theorem maintain_grows (st : KartStatus F) (busy : Bool) :
    Nor.Grows s.bootSeq s.flash (s.maintain (norDriver size) st busy).flash ∧
      (s.maintain (norDriver size) st busy).bootSeq = s.bootSeq := by
  unfold maintain
  split_ifs
  · exact ⟨.of_eq rfl, rfl⟩
  · exact ⟨.of_eq rfl, rfl⟩
  · exact ⟨.of_eq rfl, rfl⟩
  · exact drainTurns_grows _

theorem clear_grows (st : KartStatus F) (busy : Bool) (nowUs : Int) (reset : UInt32) :
    Nor.Grows s.bootSeq s.flash (s.clear (norDriver size) st busy nowUs reset).1.flash := by
  unfold clear
  cases s.part with
  | none => exact .of_eq rfl
  | some size' =>
    have herase : Nor.Grows s.bootSeq s.flash (s.flash.erase size 0 size').2 :=
      Nor.grows_erase s.flash 0 size'
    dsimp only
    split_ifs
    · exact .of_eq rfl
    · exact herase.trans (flashAppend_grows boot_boot)
    · exact herase

theorem bootRecord_grows (tMs reset : UInt32) :
    Nor.Grows (s.flashAppend (norDriver size) [mkRec Ev.boot.code s.bootSeq tMs reset]).bootSeq
      s.flash (s.flashAppend (norDriver size) [mkRec Ev.boot.code s.bootSeq tMs reset]).flash := by
  rw [(flashAppend_sameRam (norDriver size) s _).bootSeq]
  exact flashAppend_grows boot_boot

/-- `init` scans, takes the next number and logs the boot. -/
theorem init_eq (size : Nat) (s : Log Nor) (nowUs : Int) (reset : UInt32) :
    ∃ s' : Log Nor, s'.flash = s.flash ∧
      s'.bootSeq = (({ s with part := some size } : Log Nor).scan (norDriver size)
        ((size + REC_BYTES - 1) / REC_BYTES) 0 0).2 + 1 ∧
      s.init (norDriver size) (some size) nowUs reset = s'.flashAppend (norDriver size)
        [mkRec Ev.boot.code s'.bootSeq (UInt32.ofInt (nowUs / 1000)) reset] := by
  let found := ({ s with part := some size } : Log Nor).scan (norDriver size)
    ((size + REC_BYTES - 1) / REC_BYTES) 0 0
  exact ⟨{ s with part := some size, writeOff := found.1, bootSeq := found.2 + 1 }, rfl, rfl, rfl⟩

theorem init_grows (nowUs : Int) (reset : UInt32) :
    Nor.Grows (s.init (norDriver size) (some size) nowUs reset).bootSeq s.flash
      (s.init (norDriver size) (some size) nowUs reset).flash := by
  obtain ⟨s', hflash, -, hinit⟩ := init_eq size s nowUs reset
  rw [hinit, ← hflash]
  exact bootRecord_grows _ reset

theorem init_bootSeq (nowUs : Int) (reset : UInt32) :
    (s.init (norDriver size) (some size) nowUs reset).bootSeq =
      (({ s with part := some size } : Log Nor).scan (norDriver size)
        ((size + REC_BYTES - 1) / REC_BYTES) 0 0).2 + 1 := by
  obtain ⟨s', -, hboot, hinit⟩ := init_eq size s nowUs reset
  rw [hinit, (flashAppend_sameRam (norDriver size) s' _).bootSeq, hboot]

/-- Whatever happens, what is completed carries the number of the boot. -/
theorem event_grows (P : Partition) (s : Log Nor) (e : FlashEvent F) :
    Nor.Grows (s.event P e).bootSeq s.flash (s.event P e).flash := by
  cases e with
  | boot cuts nowUs reset => exact init_grows (s := Log.boot (s.flash.powered cuts)) nowUs reset
  | push ev data nowUs =>
    rw [event]
    split_ifs
    · exact .of_eq rfl
    · unfold push
      split_ifs <;> exact .of_eq rfl
  | maintain cuts st busy =>
    rw [event]
    split_ifs
    · exact .of_eq rfl
    · have hboot : ((s.powered cuts).maintain (norDriver P.size) st busy).bootSeq = _ :=
        (maintain_grows st busy).2
      rw [hboot]
      exact (maintain_grows st busy).1
  | clear cuts st busy nowUs reset =>
    rw [event]
    split_ifs
    · exact .of_eq rfl
    · rw [(clear_sameRam (norDriver P.size) (s.powered cuts) st busy nowUs reset).bootSeq]
      exact clear_grows (s := s.powered cuts) st busy nowUs reset

/-! ### The scan -/

section Taken

variable {r : Rec} {seen last : UInt16}

/-- One record of the scan does not go beyond what none goes beyond. -/
theorem taken_le (hseen : seen ≤ last) (hrec : recValid r = true → r.boot ≤ last) :
    (if recValid r = true ∧ r.boot ≥ seen then r.boot else seen) ≤ last := by
  split_ifs with htaken
  · exact hrec htaken.1
  · exact hseen

theorem taken_eq (hseen : seen ≤ last) (hrec : recValid r = true → r.boot ≤ last)
    (h : seen = last ∨ recValid r = true ∧ r.boot = last) :
    (if recValid r = true ∧ r.boot ≥ seen then r.boot else seen) = last := by
  split_ifs with htaken
  · rcases h with rfl | ⟨-, heq⟩
    · exact UInt16.le_antisymm (hrec htaken.1) htaken.2
    · exact heq
  · rcases h with heq | ⟨hvalid, rfl⟩
    · exact heq
    · exact absurd ⟨hvalid, hseen⟩ htaken

end Taken

/-- The scan comes to the highest number when every record has been seen or is at least
ahead. -/
theorem scan_boot {n : Nat} {done : List Rec} (h : Journal size s.flash.mem n done)
    {last : UInt16}
    (hmax : ∀ i < n, recValid (decodeRec s.flash.mem (16 * i)) = true →
      (decodeRec s.flash.mem (16 * i)).boot ≤ last)
    (fuel i : Nat) (seen : UInt16) (hi : i ≤ n) (hend : 16 * (i + fuel) = size)
    (hseen : seen ≤ last)
    (hthere : seen = last ∨ ∃ j, i ≤ j ∧ j < n ∧
      recValid (decodeRec s.flash.mem (16 * j)) = true ∧
        (decodeRec s.flash.mem (16 * j)).boot = last) :
    (s.scan (norDriver size) fuel (16 * i) seen).2 = last := by
  have hfits := h.fits
  induction fuel generalizing i seen with
  | zero =>
    rcases hthere with heq | ⟨j, hij, hjn, -⟩
    · exact heq
    · omega
  | succ fuel ih =>
    rcases Nat.lt_or_eq_of_le hi with hlt | rfl
    · rw [scan_used h hlt (by omega)]
      have hrec := hmax i hlt
      refine ih (i + 1) _ hlt (by omega) (taken_le hseen hrec) ?_
      rcases hthere with heq | ⟨j, hij, hjn, hj⟩
      · exact Or.inl (taken_eq hseen hrec (Or.inl heq))
      · rcases Nat.lt_or_eq_of_le hij with hlater | rfl
        · exact Or.inr ⟨j, hlater, hjn, hj⟩
        · exact Or.inl (taken_eq hseen hrec (Or.inr hj))
    · rw [scan_end h (by omega)]
      rcases hthere with heq | ⟨j, hij, hjn, -⟩
      · exact heq
      · omega

end Log

/-! ### The last boot that logged -/

section History

variable {F : Type} [CFloat F] (P : Partition)

/-- The number of the last boot in the first `n` events that got a record written. -/
def lastBoot (w : Nat → FlashEvent F) : Nat → Option UInt16
  | 0 => none
  | n + 1 =>
    if ((flashHistory P).stateAt w n).flash.stored.length <
        ((flashHistory P).stateAt w (n + 1)).flash.stored.length then
      some ((flashHistory P).stateAt w (n + 1)).bootSeq
    else lastBoot w n

theorem lastBoot_eq (w : Nat → FlashEvent F) (n : Nat) :
    lastBoot P w n = (((flashHistory P).stateAt w n).flash.stored.getLast?).map Rec.boot := by
  induction n with
  | zero => rfl
  | succ n ih =>
    obtain ⟨l, hstored, hl⟩ := Log.event_grows P ((flashHistory P).stateAt w n) (w n)
    have hstored' : ((flashHistory P).stateAt w (n + 1)).flash.stored =
        ((flashHistory P).stateAt w n).flash.stored ++ l := hstored
    rw [lastBoot, hstored', List.length_append, ih]
    cases hlast : l.getLast? with
    | none =>
      obtain rfl := List.getLast?_eq_none_iff.mp hlast
      rw [if_neg (by simp), List.append_nil]
    | some r =>
      have hmem := List.mem_of_getLast? hlast
      have hpos := List.length_pos_of_mem hmem
      rw [if_pos (by omega), List.getLast?_append, hlast]
      exact congrArg some (hl r hmem).symm

/-- The journal is whole, holds a record completed since the last erase, and none that is
numbered above the last boot. -/
structure Unbroken (d : Nor) (last : UInt16) : Prop where
  whole : d.halfErased = false
  logged : d.done ≠ []
  highest : ∀ i < P.size / REC_BYTES, recValid (decodeRec d.mem (16 * i)) = true →
    (decodeRec d.mem (16 * i)).boot ≤ last

variable {P}

/-- Every record that is owed is in a slot. -/
theorem Journal.slot_of_mem {size : Nat} {m : Mem} {n : Nat} {done : List Rec}
    (h : Journal size m n done) {r : Rec} (hr : r ∈ done) :
    ∃ i < n, recValid (decodeRec m (16 * i)) = true ∧ decodeRec m (16 * i) = r := by
  have hkept := h.kept.subset hr
  rw [records, List.mem_filter, List.mem_map] at hkept
  obtain ⟨⟨i, hi, rfl⟩, hvalid⟩ := hkept
  exact ⟨i, List.mem_range.mp hi, hvalid, rfl⟩

/-- Behind the used slots nothing reads as a record. -/
theorem Journal.used_of_valid {size : Nat} {m : Mem} {n : Nat} {done : List Rec}
    (h : Journal size m n done) {i : Nat} (hroom : 16 * i + 16 ≤ size)
    (hvalid : recValid (decodeRec m (16 * i)) = true) : i < n := by
  by_contra hbeyond
  exact head_ne_blank hvalid (wordAt_blank (h.blank.mono (by omega) (by omega)))

/-- At a boot the number is one more than the highest on the flash. -/
theorem event_bootSeq {s : Log Nor} (hinv : HistoryInv P s) (hwhole : s.flash.halfErased = false)
    {last : UInt16}
    (hmax : ∀ i < P.size / REC_BYTES, recValid (decodeRec s.flash.mem (16 * i)) = true →
      (decodeRec s.flash.mem (16 * i)).boot ≤ last)
    {i : Nat} (hi : i < P.size / REC_BYTES)
    (hvalid : recValid (decodeRec s.flash.mem (16 * i)) = true)
    (hnumber : (decodeRec s.flash.mem (16 * i)).boot = last) (cuts : List (Option Nat))
    (nowUs : Int) (reset : UInt32) :
    (s.event P (.boot cuts nowUs reset : FlashEvent F)).bootSeq = last + 1 := by
  obtain ⟨k, hholds, -⟩ := hinv.sound ⟨hwhole, hinv.failed⟩
  have hjournal := hholds.journal
  have hfits := hjournal.fits
  have hused : i < k := hjournal.used_of_valid (by rw [REC_BYTES] at hi; omega) hvalid
  have hslots : 16 * (0 + (P.size + REC_BYTES - 1) / REC_BYTES) = P.size := by
    have hsize := P.aligned
    simp only [REC_BYTES, SECTOR] at *
    omega
  have hscan := Log.scan_boot (s := { Log.boot (s.flash.powered cuts) with part := some P.size })
    hjournal (fun j hj => hmax j (by rw [REC_BYTES]; omega)) _ 0 0 (Nat.zero_le k) hslots
    UInt16.zero_le (Or.inr ⟨i, Nat.zero_le i, hused, hvalid, hnumber⟩)
  rw [Log.event, Log.init_bootSeq]
  exact congrArg (· + 1) hscan

/-- **Boot numbers separate power cycles**, in every history, at every boot that finds an
unbroken journal. -/
theorem boot_number_next (P : Partition) (w : Nat → FlashEvent F) (n : Nat)
    {cuts : List (Option Nat)} {nowUs : Int} {reset : UInt32} (hboot : w n = .boot cuts nowUs reset)
    {last : UInt16} (hlast : lastBoot P w n = some last)
    (h : Unbroken P ((flashHistory P).stateAt w n).flash last) :
    ((flashHistory P).stateAt w (n + 1)).bootSeq = last + 1 ∧
      ((flashHistory P).stateAt w (n + 1)).bootSeq ≠ last := by
  have hinv := flashHistory_inv P w n
  have hstep : (flashHistory P).stateAt w (n + 1) =
      ((flashHistory P).stateAt w n).event P (w n) := rfl
  rw [lastBoot_eq] at hlast
  rw [hstep, hboot]
  generalize (flashHistory P).stateAt w n = s at hinv hlast h
  obtain ⟨k, hholds, -⟩ := hinv.sound ⟨h.whole, hinv.failed⟩
  have hfits := hholds.journal.fits
  obtain ⟨r, hr⟩ : ∃ r, s.flash.done.getLast? = some r :=
    ⟨_, List.getLast?_eq_some_getLast h.logged⟩
  rw [Nor.stored, List.getLast?_append, hr] at hlast
  obtain rfl : r.boot = last := Option.some.inj hlast
  -- the last record that was completed is still in its slot
  obtain ⟨i, hi, hvalid, hslot⟩ := hholds.journal.slot_of_mem (List.mem_of_getLast? hr)
  have hnext := event_bootSeq (F := F) hinv h.whole h.highest (i := i)
    (by rw [REC_BYTES]; omega) hvalid (congrArg Rec.boot hslot) cuts nowUs reset
  rw [hnext]
  exact ⟨rfl, by simp⟩

/-- Behind the wrap every boot is numbered 0 as long as a record of the boot before the
wrap is left. -/
theorem boot_number_stuck (P : Partition) (w : Nat → FlashEvent F) (n : Nat)
    {cuts : List (Option Nat)} {nowUs : Int} {reset : UInt32} (hboot : w n = .boot cuts nowUs reset)
    (hwhole : ((flashHistory P).stateAt w n).flash.halfErased = false) {i : Nat}
    (hi : i < P.size / REC_BYTES)
    (hvalid : recValid (decodeRec ((flashHistory P).stateAt w n).flash.mem (16 * i)) = true)
    (hold : (decodeRec ((flashHistory P).stateAt w n).flash.mem (16 * i)).boot = 65535) :
    ((flashHistory P).stateAt w (n + 1)).bootSeq = 0 := by
  have hinv := flashHistory_inv P w n
  have hstep : (flashHistory P).stateAt w (n + 1) =
      ((flashHistory P).stateAt w n).event P (w n) := rfl
  have hmax : ∀ b : UInt16, b ≤ 65535 := by
    intro b
    have hb := b.toNat_lt
    rw [UInt16.le_iff_toNat_le]
    change b.toNat ≤ 65535
    omega
  rw [hstep, hboot]
  exact event_bootSeq (F := F) hinv hwhole (fun j _ _ => hmax _) hi hvalid hold cuts nowUs reset

end History

/-- After the torn record of the first power cycle the next boot has number 2. -/
theorem boot_number_next_torn :
    lastBoot twoSectors tornHistory 4 = some 1 ∧
      ((flashHistory twoSectors).stateAt tornHistory 5).bootSeq = 1 + 1 ∧
        ((flashHistory twoSectors).stateAt tornHistory 5).bootSeq ≠ 1 := by
  have hlast : lastBoot twoSectors tornHistory 4 = some 1 := by decide +kernel
  exact ⟨hlast, boot_number_next twoSectors tornHistory 4 rfl hlast
    ⟨by decide +kernel, by decide +kernel, by decide +kernel⟩⟩

/-- The power goes when `clear` has erased the partition. -/
def clearedHistory : Nat → FlashEvent Float32
  | 1 => .clear [some 2] .initial false 3000000 1
  | _ => .boot [] 1000 1

/-- Two power cycles in a row log under the number 1. -/
theorem boot_number_shared :
    lastBoot twoSectors clearedHistory 2 = some 1 ∧
      ((flashHistory twoSectors).stateAt clearedHistory 3).bootSeq = 1 ∧
      ((flashHistory twoSectors).stateAt clearedHistory 3).bootSeq ≠ 1 + 1 ∧
      lastBoot twoSectors clearedHistory 3 = some 1 := by
  decide +kernel

end evlog

end KartFirmware

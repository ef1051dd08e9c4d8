import KartFirmware.Recovery

/-!
# Records cut short

The slot that a power cut leaves behind when it stops the write of a record after `k`
bytes: the words that were written, the one the cut fell into with ones in its high
bytes, and blank words.

The checksum tells such a slot from a record unless the cut falls into `data`.  Then
`chk` is blank, and a blank checksum is the right one for every head, time and cut data
whose exclusive or is `0x5A5A5A5A` (`evlog.Slips`).
-/

namespace KartFirmware

namespace evlog

open NorFlash LittleEndian

/-- What is read of a record of which `k` bytes were written on blank cells. -/
def tornRec (r : Rec) (k : Nat) : Rec where
  head := cut r.head k
  tMs := cut r.tMs (k - 4)
  data := cut r.data (k - 8)
  chk := cut r.chk (k - 12)

/-- The cut changes `data`, and the blank checksum fits what is left. -/
def Slips (r : Rec) (k : Nat) : Prop :=
  8 ≤ k ∧ k < 12 ∧ cut r.data (k - 8) ≠ r.data ∧
    r.head ^^^ r.tMs ^^^ cut r.data (k - 8) = 0x5A5A5A5A

instance (r : Rec) (k : Nat) : Decidable (Slips r k) :=
  inferInstanceAs (Decidable (_ ∧ _ ∧ _ ∧ _))

/-! ### The words of a torn slot -/

theorem wordAt_torn {m : Mem} {off : Nat} (h : Blank m off (off + 16)) (k : Nat)
    (image : List UInt8) (x : UInt32) (j : Nat) (hj : j + 4 ≤ 16)
    (himage : ∀ i < 4, image[j + i]? = (bytes x)[i]?) :
    wordAt (program m off (image.take k)) (off + j) = cut x (k - j) := by
  have hcell : ∀ i < 4, program m off (image.take k) (off + j + i) =
      ((bytes x).take (k - j)).getD i 0xFF := by
    intro i hi
    have hblank : m (off + j + i) = 0xFF := h _ (by omega) (by omega)
    have hat : off + j + i - off = j + i := by omega
    rw [program, if_pos (by omega), hblank, hat, List.getD_eq_getElem?_getD,
      List.getD_eq_getElem?_getD, List.getElem?_take, List.getElem?_take, himage i hi]
    have hcut : j + i < k ↔ i < k - j := by omega
    simp only [hcut]
    exact UInt8.neg_one_and
  have h0 := hcell 0 (by omega)
  rw [Nat.add_zero] at h0
  rw [wordAt, h0, hcell 1 (by omega), hcell 2 (by omega), hcell 3 (by omega)]
  rfl

theorem decodeRec_torn {m : Mem} {off : Nat} (h : Blank m off (off + 16)) (r : Rec) (k : Nat) :
    decodeRec (program m off ((encodeRec r).take k)) off = tornRec r k := by
  have hfour : ∀ P : Nat → Prop, P 0 → P 1 → P 2 → P 3 → ∀ i < 4, P i := by
    intro P h0 h1 h2 h3 i hi
    obtain rfl | rfl | rfl | rfl : i = 0 ∨ i = 1 ∨ i = 2 ∨ i = 3 := by omega
    · exact h0
    · exact h1
    · exact h2
    · exact h3
  have hhead := wordAt_torn h k (encodeRec r) r.head 0 (by omega) (hfour _ rfl rfl rfl rfl)
  have htMs := wordAt_torn h k (encodeRec r) r.tMs 4 (by omega) (hfour _ rfl rfl rfl rfl)
  have hdata := wordAt_torn h k (encodeRec r) r.data 8 (by omega) (hfour _ rfl rfl rfl rfl)
  have hchk := wordAt_torn h k (encodeRec r) r.chk 12 (by omega) (hfour _ rfl rfl rfl rfl)
  rw [Nat.add_zero, Nat.sub_zero] at hhead
  rw [decodeRec, hhead, htMs, hdata, hchk]
  rfl

/-! ### What the checksum makes of it -/

section Checksum

variable {r : Rec} {k : Nat}

/-- Without the magic the slot is rejected. -/
theorem tornRec_head (hk : k < 4) : recValid (tornRec r k) = false := by
  have hhigh := cut_high r.head hk
  have hmagic : (cut r.head k >>> 24 == MAGIC) = false := by
    rw [beq_eq_false_iff_ne]
    intro heq
    rw [heq] at hhigh
    exact absurd hhigh (by decide)
  simp [recValid, tornRec, hmagic]

/-- When a blank word is the right checksum. -/
theorem blank_chk {head tMs data : UInt32} :
    BLANK = recChk head tMs data ↔ head ^^^ tMs ^^^ data = 0x5A5A5A5A := by
  have hblank : BLANK = 0x5A5A5A5A ^^^ 0xA5A5A5A5 := by decide
  rw [recChk, hblank, UInt32.xor_left_inj, eq_comm]

theorem magic_of_valid (hr : recValid r = true) : r.head >>> 24 = MAGIC := by
  simp only [recValid, Bool.and_eq_true, beq_iff_eq] at hr
  exact hr.1

/-- Behind the cut word of a time or of `data` the checksum is blank. -/
theorem tornRec_blank_chk (hr : recValid r = true) (hk : 4 ≤ k) (hk' : k < 12) :
    recValid (tornRec r k) = true ↔
      r.head ^^^ cut r.tMs (k - 4) ^^^ cut r.data (k - 8) = 0x5A5A5A5A := by
  have hchk : k - 12 = 0 := by omega
  have hmagic : (r.head >>> 24 == MAGIC) = true := beq_iff_eq.mpr (magic_of_valid hr)
  rw [recValid, tornRec, cut_of_le r.head hk, hchk, cut_zero, hmagic, Bool.true_and, beq_iff_eq]
  exact blank_chk

/-- A cut in `tMs` is seen: with ones in its high byte and in `data`, the exclusive or
has the magic for its high byte. -/
theorem tornRec_tMs (hr : recValid r = true) (hk : 4 ≤ k) (hk' : k < 8) :
    recValid (tornRec r k) = false := by
  have hhigh := cut_high r.tMs (show k - 4 < 4 by omega)
  have hdata : k - 8 = 0 := by omega
  rw [Bool.eq_false_iff, ne_eq, tornRec_blank_chk hr hk (by omega), hdata, cut_zero]
  intro hxor
  have hbyte := congrArg (fun x : UInt32 => (x >>> 24).toUInt8) hxor
  simp only [UInt32.shiftRight_xor, UInt32.toUInt8_xor, magic_of_valid hr, hhigh] at hbyte
  exact absurd hbyte (by decide)

/-- A cut in `data` is seen unless the words that are left cancel out. -/
theorem tornRec_data (hr : recValid r = true) (hk : 8 ≤ k) (hk' : k < 12) :
    recValid (tornRec r k) = true ↔
      r.head ^^^ r.tMs ^^^ cut r.data (k - 8) = 0x5A5A5A5A := by
  rw [tornRec_blank_chk hr (by omega) hk', cut_of_le r.tMs (by omega)]

/-- A cut in the checksum is seen, or has not changed it. -/
theorem tornRec_chk (hr : recValid r = true) (hk : 12 ≤ k)
    (hvalid : recValid (tornRec r k) = true) : tornRec r k = r := by
  have hchk : r.chk = recChk r.head r.tMs r.data := by
    simp only [recValid, Bool.and_eq_true, beq_iff_eq] at hr
    exact hr.2
  have hwords : tornRec r k = { r with chk := cut r.chk (k - 12) } := by
    rw [tornRec, cut_of_le r.head (by omega), cut_of_le r.tMs (by omega),
      cut_of_le r.data (by omega)]
  rw [hwords] at hvalid ⊢
  simp only [recValid, Bool.and_eq_true, beq_iff_eq] at hvalid
  rw [hvalid.2, ← hchk]

/-- A cut in `data` that has not changed it, with the right blank checksum. -/
theorem tornRec_same (hr : recValid r = true) (hk : 8 ≤ k) (hk' : k < 12)
    (hvalid : recValid (tornRec r k) = true) (hdata : cut r.data (k - 8) = r.data) :
    tornRec r k = r := by
  have hchk : r.chk = recChk r.head r.tMs r.data := by
    simp only [recValid, Bool.and_eq_true, beq_iff_eq] at hr
    exact hr.2
  have hblank := (tornRec_data hr hk hk').mp hvalid
  rw [hdata, ← blank_chk, ← hchk] at hblank
  have hshort : k - 12 = 0 := by omega
  have hwords : tornRec r k = { r with chk := BLANK } := by
    rw [tornRec, cut_of_le r.head (by omega), cut_of_le r.tMs (by omega), hdata, hshort, cut_zero]
    rfl
  rw [hwords, hblank]

/-- **When a torn record is taken for one.** -/
theorem tornRec_taken_iff (hr : recValid r = true) :
    recValid (tornRec r k) = true ∧ tornRec r k ≠ r ↔ Slips r k := by
  constructor
  · rintro ⟨hvalid, hne⟩
    rcases Nat.lt_or_ge k 4 with h4 | h4
    · exact absurd hvalid (by simp [tornRec_head h4])
    rcases Nat.lt_or_ge k 8 with h8 | h8
    · exact absurd hvalid (by simp [tornRec_tMs hr h4 h8])
    rcases Nat.lt_or_ge k 12 with h12 | h12
    · refine ⟨h8, h12, ?_, (tornRec_data hr h8 h12).mp hvalid⟩
      exact fun hdata => hne (tornRec_same hr h8 h12 hvalid hdata)
    · exact absurd (tornRec_chk hr h12 hvalid) hne
  · rintro ⟨h8, h12, hdata, hxor⟩
    refine ⟨(tornRec_data hr h8 h12).mpr hxor, fun heq => hdata ?_⟩
    exact congrArg Rec.data heq

end Checksum

/-! ### What is read back -/

namespace Log

/-- `readAt` for one slot. -/
theorem readAt_slot {size : Nat} {s : Log Nor} {idx : Nat} (hpart : s.part ≠ none)
    (hidx : idx < s.writeOff / REC_BYTES) (hroom : 16 * idx + 16 ≤ size) :
    s.readAt (norDriver size) idx 1 = [decodeRec s.flash.mem (16 * idx)].filter recValid := by
  have hread : (norDriver size).read s.flash (idx * REC_BYTES) =
      some (decodeRec s.flash.mem (16 * idx)) := by
    rw [Nat.mul_comm]
    exact if_pos hroom
  rw [readAt, if_neg hpart, readFrom, if_pos hidx, hread, List.filter_singleton,
    Bool.cond_eq_ite]
  rfl

end Log

/-- What the checksum owes for the record that a slot was to hold: the slot is blank, or
holds it, or is rejected; and whoever reads the slot gets this record or none. -/
structure TornSafe (size : Nat) (m : Mem) (idx : Nat) (r : Rec) : Prop where
  slot : Blank m (16 * idx) (16 * idx + 16) ∨ decodeRec m (16 * idx) = r ∨
    recValid (decodeRec m (16 * idx)) = false
  read : ∀ s : Log Nor, s.flash.mem = m → s.part ≠ none → idx < s.writeOff / REC_BYTES →
    ∀ q ∈ s.readAt (norDriver size) idx 1, q = r

/-- **When the checksum tells a torn record from a complete one.**  Of a record cut short
on a blank slot nothing is read but the record itself, exactly when the cut does not slip
through `data`. -/
theorem torn_record_safe_iff {size : Nat} {m : Mem} {idx : Nat}
    (hblank : Blank m (16 * idx) (16 * idx + 16)) (hroom : 16 * idx + 16 ≤ size) (code : UInt8)
    (boot : UInt16) (tMs data : UInt32) (k : Nat) :
    TornSafe size (program m (16 * idx) ((encodeRec (mkRec code boot tMs data)).take k)) idx
        (mkRec code boot tMs data) ↔
      ¬ Slips (mkRec code boot tMs data) k := by
  have hr := mkRec_valid code boot tMs data
  have hslot := decodeRec_torn hblank (mkRec code boot tMs data) k
  rw [← tornRec_taken_iff hr]
  constructor
  · rintro ⟨hcases, -⟩ ⟨hvalid, hne⟩
    rw [hslot] at hcases
    rcases hcases with hleft | hsame | hinvalid
    · have hhead : (decodeRec (program m (16 * idx) _) (16 * idx)).head = BLANK :=
        wordAt_blank (hleft.mono le_rfl (by omega))
      exact head_ne_blank hvalid (hslot ▸ hhead)
    · exact hne hsame
    · exact absurd hvalid (by simp [hinvalid])
  · intro hno
    have hone : recValid (tornRec (mkRec code boot tMs data) k) = true →
        tornRec (mkRec code boot tMs data) k = mkRec code boot tMs data := by
      intro hvalid
      by_contra hne
      exact hno ⟨hvalid, hne⟩
    refine ⟨?_, fun s hmem hpart hidx q hq => ?_⟩
    · right
      rw [hslot]
      cases hvalid : recValid (tornRec (mkRec code boot tMs data) k) with
      | true => exact Or.inl (hone hvalid)
      | false => exact Or.inr rfl
    · rw [Log.readAt_slot hpart hidx hroom, hmem, hslot, List.mem_filter, List.mem_singleton] at hq
      obtain ⟨rfl, hvalid⟩ := hq
      exact hone hvalid

theorem torn_record_safe_iff_fresh :
    TornSafe 8192 (program Nor.fresh.mem 16 ((encodeRec (mkRec 7 1 5000 3)).take 8)) 1
        (mkRec 7 1 5000 3) ↔
      ¬ Slips (mkRec 7 1 5000 3) 8 :=
  @torn_record_safe_iff 8192 Nor.fresh.mem 1 (by decide) (by decide) 7 1 5000 3 8

/-- The kart is disarmed after fifteen days, and the power goes in the middle of the
record. -/
def slipHistory : Nat → FlashEvent Float32
  | 0 => .boot [] 1000 1
  | 1 => .push .disarm 3 1319282084000
  | 2 => .maintain [some 8] .initial false
  | _ => .boot [] 1000 1

/-- The next boot reads a record that was never logged, with `data` blank. -/
theorem torn_record_taken :
    ¬ TornSafe 8192
        (program Nor.fresh.mem 16 ((encodeRec (mkRec Ev.disarm.code 1 1319282084 3)).take 8)) 1
        (mkRec Ev.disarm.code 1 1319282084 3) ∧
      ((flashHistory twoSectors).stateAt slipHistory 4).readAt (norDriver 8192) 0 3 =
        [mkRec Ev.boot.code 1 1 1, mkRec Ev.disarm.code 1 1319282084 BLANK,
          mkRec Ev.boot.code 2 1 1] := by
  refine ⟨?_, by decide +kernel⟩
  rintro ⟨hslot, -⟩
  revert hslot
  decide +kernel

end evlog

end KartFirmware

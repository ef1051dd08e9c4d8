import KartFirmware.EvLog
import KartFirmware.LittleEndian
import KartFirmware.NorFlash

/-!
# The journal on the flash

A record as its sixteen bytes, and what a partition looks like that holds a journal:
slots that are used, the rest blank (`evlog.Journal`).
-/

namespace KartFirmware

namespace evlog

open NorFlash

/-! ### A record as bytes -/

def encodeRec (r : Rec) : List UInt8 :=
  LittleEndian.bytes r.head ++ LittleEndian.bytes r.tMs ++ LittleEndian.bytes r.data ++
    LittleEndian.bytes r.chk

def encode (recs : List Rec) : List UInt8 := recs.flatMap encodeRec

def wordAt (m : Mem) (a : Nat) : UInt32 :=
  LittleEndian.word (m a) (m (a + 1)) (m (a + 2)) (m (a + 3))

/-- The record that is read at an offset. -/
def decodeRec (m : Mem) (off : Nat) : Rec where
  head := wordAt m off
  tMs := wordAt m (off + 4)
  data := wordAt m (off + 8)
  chk := wordAt m (off + 12)

@[simp] theorem length_encodeRec (r : Rec) : (encodeRec r).length = 16 := rfl

@[simp] theorem length_encode (recs : List Rec) : (encode recs).length = 16 * recs.length := by
  induction recs with
  | nil => rfl
  | cons r recs ih =>
    rw [encode, List.flatMap_cons, List.length_append, length_encodeRec, ← encode, ih,
      List.length_cons]
    omega

theorem decodeRec_congr {m m' : Mem} {off : Nat} (h : ∀ i < 16, m' (off + i) = m (off + i)) :
    decodeRec m' off = decodeRec m off := by
  have hword : ∀ k, k + 3 < 16 → wordAt m' (off + k) = wordAt m (off + k) := by
    intro k hk
    simp only [wordAt, Nat.add_assoc, h k (by omega), h (k + 1) (by omega), h (k + 2) (by omega),
      h (k + 3) hk]
  have h0 := hword 0 (by omega)
  rw [Nat.add_zero] at h0
  rw [decodeRec, decodeRec, h0, hword 4 (by omega), hword 8 (by omega), hword 12 (by omega)]

/-- A record programmed on blank cells is read back. -/
theorem decodeRec_program {m : Mem} {off : Nat} (h : Blank m off (off + 16)) (r : Rec) :
    decodeRec (program m off (encodeRec r)) off = r := by
  have hbyte : ∀ i (hi : i < 16), program m off (encodeRec r) (off + i) = (encodeRec r)[i] :=
    fun i hi => program_blank h hi
  have hbyte0 : program m off (encodeRec r) off = (encodeRec r)[0] := hbyte 0 (by omega)
  simp only [decodeRec, wordAt, Nat.add_assoc]
  rw [hbyte0, hbyte 1 (by omega), hbyte 2 (by omega), hbyte 3 (by omega), hbyte 4 (by omega),
    hbyte 5 (by omega), hbyte 6 (by omega), hbyte 7 (by omega), hbyte 8 (by omega),
    hbyte 9 (by omega), hbyte 10 (by omega), hbyte 11 (by omega), hbyte 12 (by omega),
    hbyte 13 (by omega), hbyte 14 (by omega), hbyte 15 (by omega)]
  obtain ⟨head, tMs, data, chk⟩ := r
  have hhead := LittleEndian.word_bytes head
  have htMs := LittleEndian.word_bytes tMs
  have hdata := LittleEndian.word_bytes data
  have hchk := LittleEndian.word_bytes chk
  exact congr (congr (congr (congrArg Rec.mk hhead) htMs) hdata) hchk

/-- Only blank cells are read as `BLANK`. -/
theorem wordAt_eq_blank {m : Mem} {a : Nat} (h : wordAt m a = BLANK) : Blank m a (a + 4) := by
  have hbytes := LittleEndian.bytes_word (m a) (m (a + 1)) (m (a + 2)) (m (a + 3))
  have hword : LittleEndian.word (m a) (m (a + 1)) (m (a + 2)) (m (a + 3)) = BLANK := h
  have hblank : LittleEndian.bytes BLANK = [0xFF, 0xFF, 0xFF, 0xFF] := by decide
  rw [hword, hblank] at hbytes
  simp only [List.cons.injEq, and_true] at hbytes
  obtain ⟨h0, h1, h2, h3⟩ := hbytes
  intro b hb hab
  obtain rfl | rfl | rfl | rfl : b = a ∨ b = a + 1 ∨ b = a + 2 ∨ b = a + 3 := by omega
  · exact h0.symm
  · exact h1.symm
  · exact h2.symm
  · exact h3.symm

theorem wordAt_blank {m : Mem} {a : Nat} (h : Blank m a (a + 4)) : wordAt m a = BLANK := by
  rw [wordAt, h a (by omega) (by omega), h (a + 1) (by omega) (by omega),
    h (a + 2) (by omega) (by omega), h (a + 3) (by omega) (by omega)]
  rfl

/-! ### Journals -/

/-- The valid records of the first `n` slots. -/
def records (m : Mem) (n : Nat) : List Rec :=
  ((List.range n).map fun i => decodeRec m (16 * i)).filter recValid

/-- The first `n` slots are used and the rest of the partition is blank; the records
`done` are there, in order. -/
structure Journal (size : Nat) (m : Mem) (n : Nat) (done : List Rec) : Prop where
  fits : 16 * n ≤ size
  used : ∀ i < n, (decodeRec m (16 * i)).head ≠ BLANK
  blank : Blank m (16 * n) size
  kept : done.Sublist (records m n)

theorem records_succ (m : Mem) (n : Nat) :
    records m (n + 1) = records m n ++ [decodeRec m (16 * n)].filter recValid := by
  rw [records, List.range_succ, List.map_append, List.filter_append]
  rfl

theorem records_congr {m m' : Mem} {n : Nat} (h : ∀ a < 16 * n, m' a = m a) :
    records m' n = records m n := by
  rw [records, records]
  refine congrArg (List.filter recValid) (List.map_congr_left ?_)
  intro i hi
  rw [List.mem_range] at hi
  refine decodeRec_congr fun j hj => h _ ?_
  omega

section Journal

variable {size : Nat} {m : Mem} {n : Nat} {done : List Rec}

/-- A blank partition is an empty journal. -/
theorem Journal.empty (h : Blank m 0 size) : Journal size m 0 [] :=
  ⟨Nat.zero_le _, fun i hi => absurd hi (Nat.not_lt_zero i), h, List.nil_sublist _⟩

/-- Nothing is owed any more. -/
theorem Journal.forget (h : Journal size m n done) : Journal size m n [] :=
  ⟨h.fits, h.used, h.blank, List.nil_sublist _⟩

theorem Journal.slot_blank (h : Journal size m n done) (hroom : 16 * (n + 1) ≤ size) :
    Blank m (16 * n) (16 * n + 16) :=
  h.blank.mono le_rfl (by omega)

/-- A slot that was blank has been programmed, the ones below it are as they were. -/
theorem Journal.use (h : Journal size m n done) (hroom : 16 * (n + 1) ≤ size) {bytes : List UInt8}
    (hlen : bytes.length ≤ 16)
    (hused : (decodeRec (program m (16 * n) bytes) (16 * n)).head ≠ BLANK) {done' : List Rec}
    (hkept : done'.Sublist
      (done ++ [decodeRec (program m (16 * n) bytes) (16 * n)].filter recValid)) :
    Journal size (program m (16 * n) bytes) (n + 1) done' := by
  have hbelow : ∀ a < 16 * n, program m (16 * n) bytes a = m a :=
    fun a ha => program_below m _ bytes ha
  refine ⟨hroom, ?_, ?_, ?_⟩
  · intro i hi
    rcases Nat.lt_succ_iff_lt_or_eq.mp hi with hlt | rfl
    · rw [decodeRec_congr fun j hj => hbelow _ (by omega)]
      exact h.used i hlt
    · exact hused
  · exact (h.blank.mono (by omega) le_rfl).program (by omega)
  · rw [records_succ, records_congr hbelow]
    exact hkept.trans (h.kept.append_right _)

theorem head_ne_blank {r : Rec} (h : recValid r = true) : r.head ≠ BLANK := by
  intro hblank
  have hmagic : (BLANK >>> 24 == MAGIC) = false := by decide
  simp [recValid, hblank, hmagic] at h

/-- A record is written behind the used slots. -/
theorem Journal.append (h : Journal size m n done) (hroom : 16 * (n + 1) ≤ size) {r : Rec}
    (hr : recValid r = true) :
    Journal size (program m (16 * n) (encodeRec r)) (n + 1) (done ++ [r]) := by
  have hback := decodeRec_program (h.slot_blank hroom) r
  refine h.use hroom le_rfl ?_ ?_
  · rw [hback]
    exact head_ne_blank hr
  · rw [hback, List.filter_singleton, hr]
    exact List.Sublist.refl _

/-- A record cut short leaves its slot blank, or used: the byte that completes `head`
holds the magic. -/
theorem torn_slot {off : Nat} (hblank : Blank m off (off + 16)) {r : Rec} (hr : recValid r = true)
    (k : Nat) :
    Blank (program m off ((encodeRec r).take k)) off (off + 16) ∨
      (decodeRec (program m off ((encodeRec r).take k)) off).head ≠ BLANK := by
  by_cases hhead : wordAt (program m off ((encodeRec r).take k)) off = BLANK
  · left
    have hlen : ((encodeRec r).take k).length = min k 16 := by
      rw [List.length_take, length_encodeRec]
    have hfirst := wordAt_eq_blank hhead
    have hshort : k < 4 := by
      by_contra hlong
      have hcell := hfirst (off + 3) (by omega) (by omega)
      rw [program_blank (hblank.mono le_rfl (by omega)) (by omega), List.getElem_take] at hcell
      have hmagic : r.head >>> 24 = MAGIC := by
        simp only [recValid, Bool.and_eq_true, beq_iff_eq] at hr
        exact hr.1
      have hbyte : (encodeRec r)[3] = MAGIC.toUInt8 := congrArg UInt32.toUInt8 hmagic
      exact absurd (hbyte.symm.trans hcell) (by decide)
    have hrest : Blank m (off + 4) (off + 16) := hblank.mono (by omega) le_rfl
    exact hfirst.append (hrest.program (by omega))
  · exact Or.inr hhead

/-- A record cut short takes a slot or none. -/
theorem Journal.torn (h : Journal size m n done) (hroom : 16 * (n + 1) ≤ size) {r : Rec}
    (hr : recValid r = true) (k : Nat) :
    ∃ n', Journal size (program m (16 * n) ((encodeRec r).take k)) n' done := by
  have hlen : ((encodeRec r).take k).length ≤ 16 := by
    rw [List.length_take, length_encodeRec]
    omega
  rcases torn_slot (h.slot_blank hroom) hr k with hblank | hused
  · have hbelow : ∀ a < 16 * n, program m (16 * n) ((encodeRec r).take k) a = m a :=
      fun a ha => program_below m _ _ ha
    refine ⟨n, h.fits, ?_, ?_, ?_⟩
    · intro i hi
      rw [decodeRec_congr fun j hj => hbelow _ (by omega)]
      exact h.used i hi
    · exact hblank.append ((h.blank.mono (by omega) le_rfl).program (by omega))
    · rw [records_congr hbelow]
      exact h.kept
  · refine ⟨n + 1, h.use hroom hlen hused ?_⟩
    exact List.sublist_append_left _ _

/-! ### Batches -/

theorem encode_cons (r : Rec) (recs : List Rec) :
    encode (r :: recs) = encodeRec r ++ encode recs := List.flatMap_cons ..

/-- Programming one record more. -/
theorem program_encode_cons (r : Rec) (bytes : List UInt8) :
    program m (16 * n) (encodeRec r ++ bytes) =
      program (program m (16 * n) (encodeRec r)) (16 * (n + 1)) bytes :=
  program_append m (16 * n) (encodeRec r) bytes

/-- A batch is written behind the used slots. -/
theorem Journal.append_all (h : Journal size m n done) {recs : List Rec}
    (hrecs : ∀ r ∈ recs, recValid r = true) (hroom : 16 * (n + recs.length) ≤ size) :
    Journal size (program m (16 * n) (encode recs)) (n + recs.length) (done ++ recs) := by
  induction recs generalizing m n done with
  | nil =>
    rw [encode, List.flatMap_nil, program_nil, List.append_nil]
    exact h
  | cons r recs ih =>
    rw [List.length_cons] at hroom ⊢
    have hfirst := h.append (by omega) (hrecs r List.mem_cons_self)
    have hrest := ih hfirst (fun q hq => hrecs q (List.mem_cons_of_mem _ hq)) (by omega)
    rw [encode_cons, program_encode_cons, List.append_cons, Nat.add_comm recs.length,
      ← Nat.add_assoc]
    exact hrest

/-- A batch cut short: the records that were completed are there, and the rest of the
partition is blank behind them or behind a torn one. -/
theorem Journal.cut (h : Journal size m n done) {recs : List Rec}
    (hrecs : ∀ r ∈ recs, recValid r = true) (hroom : 16 * (n + recs.length) ≤ size) (k : Nat) :
    ∃ n', Journal size (program m (16 * n) ((encode recs).take k)) n'
      (done ++ recs.take (k / 16)) := by
  induction recs generalizing m n done k with
  | nil =>
    refine ⟨n, ?_⟩
    rw [encode, List.flatMap_nil, List.take_nil, List.take_nil, program_nil, List.append_nil]
    exact h
  | cons r recs ih =>
    rw [List.length_cons] at hroom
    have hr := hrecs r List.mem_cons_self
    rw [encode_cons]
    rcases Nat.lt_or_ge k 16 with hk | hk
    · rw [List.take_append_of_le_length (by rw [length_encodeRec]; omega), Nat.div_eq_of_lt hk,
        List.take_zero, List.append_nil]
      exact h.torn (by omega) hr k
    · have hfirst := h.append (by omega) hr
      obtain ⟨n', hrest⟩ := ih hfirst (fun q hq => hrecs q (List.mem_cons_of_mem _ hq)) (by omega)
        (k - 16)
      refine ⟨n', ?_⟩
      have hdiv : k / 16 = (k - 16) / 16 + 1 := by omega
      rw [List.take_append, List.take_of_length_le hk, length_encodeRec, program_encode_cons, hdiv,
        List.take_succ_cons, List.append_cons]
      exact hrest

end Journal

end evlog

end KartFirmware

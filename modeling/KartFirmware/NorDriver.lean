import KartFirmware.EvFlash

/-!
# The log on a flash that fails

A driver for the log whose operations may be cut short.  `plan` says what befalls each
write and each erase: it is done, the power goes while it is under way, or it returns an
error half done.  A write leaves a prefix of its bytes behind, an erase a prefix of its
sectors, and without power nothing happens any more.

`done` and `erased` are what has been written completely, since the last erase request
and before it.  The three flags are never cleared: an erase was cut between two sectors
with something left behind them, a write met cells that were not blank, an operation
failed.
-/

namespace KartFirmware

namespace evlog

open NorFlash

inductive Outcome where
  | ok
  | cut (n : Nat)
  | fail (n : Nat)
deriving DecidableEq

structure Nor where
  mem : Mem
  /-- What befalls the next operations; those it does not reach are done. -/
  plan : List Outcome
  dead : Bool
  done : List Rec
  erased : List Rec
  halfErased : Bool
  overwrote : Bool
  failed : Bool

/-- A partition that was never written. -/
def Nor.fresh : Nor where
  mem _ := 0xFF
  plan := []
  dead := false
  done := []
  erased := []
  halfErased := false
  overwrote := false
  failed := false

namespace Nor

variable (size : Nat) (d : Nor)

def next : Outcome := d.plan.headD .ok

def read (off : Nat) : Option Rec :=
  if off + 16 ≤ size then some (decodeRec d.mem off) else none

/-- Bytes are programmed, whatever the cells hold. -/
def programmed (off : Nat) (bytes : List UInt8) : Nor :=
  { d with
    mem := program d.mem off bytes, plan := d.plan.tail
    overwrote := d.overwrote || !decide (Blank d.mem off (off + bytes.length)) }

def write (off : Nat) (recs : List Rec) : Bool × Nor :=
  if d.dead then (false, d)
  else if size < off + 16 * recs.length then (false, d)
  else
    match d.next with
    | .ok => (true, { d.programmed off (encode recs) with done := d.done ++ recs })
    | .cut n =>
      (false,
        { d.programmed off ((encode recs).take n) with
          dead := true, done := d.done ++ recs.take (n / 16) })
    | .fail n => (false, { d.programmed off ((encode recs).take n) with failed := true })

/-- `n` sectors of a range are erased, and what was written is given up. -/
def erasedTo (off len n : Nat) : Nor :=
  { d with
    mem := eraseSectors d.mem off len n, plan := d.plan.tail
    done := [], erased := d.erased ++ d.done }

def erase (off len : Nat) : Bool × Nor :=
  if d.dead then (false, d)
  else if size < off + len then (false, d)
  else
    match d.next with
    | .ok => (true, d.erasedTo off len (len / SECTOR))
    | .cut n =>
      (false,
        { d.erasedTo off len n with
          dead := true
          halfErased := d.halfErased ||
            (decide (0 < n) && !decide (Blank d.mem (off + SECTOR * n) (off + len))) })
    | .fail n => (false, { d.erasedTo off len n with failed := true })

end Nor

def norDriver (size : Nat) : FlashDriver Nor where
  read d off := d.read size off
  write d off recs := d.write size off recs
  erase d off len := d.erase size off len

/-! ### One operation -/

namespace Nor

/-- No erase was cut midway and nothing has failed. -/
structure Clean (d : Nor) : Prop where
  halfErased : d.halfErased = false
  failed : d.failed = false

variable {size : Nat} {d : Nor}

/-- What a write comes to: nothing, or one of the three outcomes. -/
theorem write_cases {off : Nat} {recs : List Rec} {P : Bool × Nor → Prop}
    (hnone : d.dead = true ∨ size < off + 16 * recs.length → P (false, d))
    (hok : off + 16 * recs.length ≤ size →
      P (true, { d.programmed off (encode recs) with done := d.done ++ recs }))
    (hcut : ∀ n, d.next = .cut n → off + 16 * recs.length ≤ size →
      P (false,
        { d.programmed off ((encode recs).take n) with
          dead := true, done := d.done ++ recs.take (n / 16) }))
    (hfail : ∀ n, d.next = .fail n →
      P (false, { d.programmed off ((encode recs).take n) with failed := true })) :
    P (d.write size off recs) := by
  unfold write
  split_ifs with hdead hrange
  · exact hnone (Or.inl hdead)
  · exact hnone (Or.inr hrange)
  · cases hnext : d.next with
    | ok => exact hok (Nat.le_of_not_lt hrange)
    | cut n => exact hcut n hnext (Nat.le_of_not_lt hrange)
    | fail n => exact hfail n hnext

/-- What an erase comes to. -/
theorem erase_cases {off len : Nat} {P : Bool × Nor → Prop}
    (hnone : d.dead = true ∨ size < off + len → P (false, d))
    (hok : d.dead = false → P (true, d.erasedTo off len (len / SECTOR)))
    (hcut : ∀ n, d.next = .cut n → d.dead = false →
      P (false,
        { d.erasedTo off len n with
          dead := true
          halfErased := d.halfErased ||
            (decide (0 < n) && !decide (Blank d.mem (off + SECTOR * n) (off + len))) }))
    (hfail : ∀ n, d.next = .fail n → d.dead = false →
      P (false, { d.erasedTo off len n with failed := true })) :
    P (d.erase size off len) := by
  unfold erase
  split_ifs with hdead hrange
  · exact hnone (Or.inl hdead)
  · exact hnone (Or.inr hrange)
  · rw [Bool.not_eq_true] at hdead
    cases hnext : d.next with
    | ok => exact hok hdead
    | cut n => exact hcut n hnext hdead
    | fail n => exact hfail n hnext hdead

theorem clean_of_write {off : Nat} {recs : List Rec} :
    (d.write size off recs).2.Clean → d.Clean := by
  apply write_cases (P := fun r => r.2.Clean → d.Clean)
  · exact fun _ h => h
  · rintro - ⟨hhalf, hfailed⟩
    exact ⟨hhalf, hfailed⟩
  · rintro n - - ⟨hhalf, hfailed⟩
    exact ⟨hhalf, hfailed⟩
  · rintro n - ⟨-, hfailed⟩
    cases hfailed

theorem clean_of_erase {off len : Nat} : (d.erase size off len).2.Clean → d.Clean := by
  apply erase_cases (P := fun r => r.2.Clean → d.Clean)
  · exact fun _ h => h
  · rintro - ⟨hhalf, hfailed⟩
    exact ⟨hhalf, hfailed⟩
  · rintro n - - ⟨hhalf, hfailed⟩
    exact ⟨(Bool.or_eq_false_iff.mp hhalf).1, hfailed⟩
  · rintro n - - ⟨-, hfailed⟩
    cases hfailed

/-- The power does not come back. -/
theorem alive_of_erase {off len : Nat} :
    (d.erase size off len).2.dead = false → d.dead = false := by
  apply erase_cases (P := fun r => r.2.dead = false → d.dead = false)
  · exact fun _ h => h
  · exact fun halive _ => halive
  · exact fun _ _ halive _ => halive
  · exact fun _ _ halive _ => halive

/-! ### Plans without failures, plans without cuts -/

theorem next_ne {o : Outcome} (hok : o ≠ .ok) (hplan : o ∉ d.plan) : d.next ≠ o := by
  unfold next
  cases hd : d.plan with
  | nil => exact hok.symm
  | cons o' rest =>
    intro hnext
    have hfirst : o' = o := hnext
    exact hplan (hd ▸ hfirst ▸ List.mem_cons_self)

/-- Nothing has failed, and nothing will. -/
structure Steady (d : Nor) : Prop where
  failed : d.failed = false
  plan : ∀ n, Outcome.fail n ∉ d.plan

/-- The power is on and stays on. -/
structure Live (d : Nor) : Prop where
  dead : d.dead = false
  halfErased : d.halfErased = false
  plan : ∀ n, Outcome.cut n ∉ d.plan

theorem Steady.next_ne (h : d.Steady) (n : Nat) : d.next ≠ .fail n :=
  Nor.next_ne (by simp) (h.plan n)

theorem Steady.tail (h : d.Steady) (n : Nat) : Outcome.fail n ∉ d.plan.tail :=
  fun hmem => h.plan n (List.mem_of_mem_tail hmem)

theorem Live.next_ne (h : d.Live) (n : Nat) : d.next ≠ .cut n :=
  Nor.next_ne (by simp) (h.plan n)

theorem Live.tail (h : d.Live) (n : Nat) : Outcome.cut n ∉ d.plan.tail :=
  fun hmem => h.plan n (List.mem_of_mem_tail hmem)

theorem steady_write (d : Nor) (off : Nat) (recs : List Rec) (h : d.Steady) :
    ((norDriver size).write d off recs).2.Steady := by
  apply write_cases (P := fun r => r.2.Steady)
  · exact fun _ => h
  · exact fun _ => ⟨h.failed, h.tail⟩
  · exact fun _ _ _ => ⟨h.failed, h.tail⟩
  · exact fun n hnext => absurd hnext (h.next_ne n)

theorem steady_erase (d : Nor) (off len : Nat) (h : d.Steady) :
    ((norDriver size).erase d off len).2.Steady := by
  apply erase_cases (P := fun r => r.2.Steady)
  · exact fun _ => h
  · exact fun _ => ⟨h.failed, h.tail⟩
  · exact fun _ _ _ => ⟨h.failed, h.tail⟩
  · exact fun n hnext => absurd hnext (h.next_ne n)

theorem live_write (d : Nor) (off : Nat) (recs : List Rec) (h : d.Live) :
    ((norDriver size).write d off recs).2.Live := by
  apply write_cases (P := fun r => r.2.Live)
  · exact fun _ => h
  · exact fun _ => ⟨h.dead, h.halfErased, h.tail⟩
  · exact fun n hnext => absurd hnext (h.next_ne n)
  · exact fun _ _ => ⟨h.dead, h.halfErased, h.tail⟩

theorem live_erase (d : Nor) (off len : Nat) (h : d.Live) :
    ((norDriver size).erase d off len).2.Live := by
  apply erase_cases (P := fun r => r.2.Live)
  · exact fun _ => h
  · exact fun _ => ⟨h.dead, h.halfErased, h.tail⟩
  · exact fun n hnext => absurd hnext (h.next_ne n)
  · exact fun _ _ _ => ⟨h.dead, h.halfErased, h.tail⟩

/-! ### Journals -/

/-- The partition holds a journal, and nothing was written over. -/
structure Holds (size : Nat) (d : Nor) (n : Nat) : Prop where
  overwrote : d.overwrote = false
  journal : Journal size d.mem n d.done

/-- After an operation on a journal of `n` slots that is clean the partition holds one
again, of `k` slots when the operation was done and of `n` when it was refused. -/
def Leaves (size n k : Nat) (r : Bool × Nor) : Prop :=
  r.2.Clean → ∃ n', r.2.Holds size n' ∧ (r.2.dead = false → n' = if r.1 then k else n)

/-- Blank cells are programmed. -/
theorem programmed_overwrote {off : Nat} {bytes : List UInt8}
    (h : Blank d.mem off (off + bytes.length)) :
    (d.programmed off bytes).overwrote = d.overwrote := by
  simp [programmed, h]

/-- A write behind the used slots, done or cut short, leaves a journal behind. -/
theorem Holds.write {n : Nat} (h : d.Holds size n) {recs : List Rec}
    (hrecs : ∀ r ∈ recs, recValid r = true) :
    Leaves size n (n + recs.length) (d.write size (16 * n) recs) := by
  apply write_cases (P := Leaves size n (n + recs.length))
  · intro _ _
    exact ⟨n, h, fun _ => rfl⟩
  · intro hroom _
    have hblank : Blank d.mem (16 * n) (16 * n + (encode recs).length) :=
      h.journal.blank.mono le_rfl (by rw [length_encode]; exact hroom)
    refine ⟨n + recs.length, ⟨?_, ?_⟩, fun _ => rfl⟩
    · exact (programmed_overwrote hblank).trans h.overwrote
    · exact h.journal.append_all hrecs (by omega)
  · intro k _ hroom _
    have hblank : Blank d.mem (16 * n) (16 * n + ((encode recs).take k).length) :=
      h.journal.blank.mono le_rfl (by rw [List.length_take, length_encode]; omega)
    obtain ⟨n', hcut⟩ := h.journal.cut hrecs (by omega) k
    refine ⟨n', ⟨?_, hcut⟩, fun halive => absurd halive (by simp)⟩
    exact (programmed_overwrote hblank).trans h.overwrote
  · rintro k - ⟨-, hfailed⟩
    cases hfailed

/-- An erase of the whole partition leaves a journal behind, unless it is cut midway. -/
theorem Holds.erase (hsize : SECTOR ∣ size) {n : Nat} (h : d.Holds size n) :
    Leaves size n 0 (d.erase size 0 size) := by
  apply erase_cases (P := Leaves size n 0)
  · intro _ _
    exact ⟨n, h, fun _ => rfl⟩
  · intro _ _
    have hall : SECTOR * (size / SECTOR) = size := Nat.mul_div_cancel' hsize
    have hblank : Blank (eraseSectors d.mem 0 size (size / SECTOR)) 0 (0 + size) :=
      eraseSectors_blank_all fun a ha hlow => by omega
    rw [Nat.zero_add] at hblank
    exact ⟨0, ⟨h.overwrote, .empty hblank⟩, fun _ => rfl⟩
  · rintro k - - ⟨hhalf, -⟩
    rcases Nat.eq_zero_or_pos k with rfl | hk
    · refine ⟨n, ⟨h.overwrote, ?_⟩, fun halive => absurd halive (by simp)⟩
      change Journal size (eraseSectors d.mem 0 size 0) n []
      rw [eraseSectors_zero]
      exact h.journal.forget
    · have hrest : Blank d.mem (0 + SECTOR * k) (0 + size) := by
        simpa [hk] using (Bool.or_eq_false_iff.mp hhalf).2
      have hblank := eraseSectors_blank_all hrest
      rw [Nat.zero_add] at hblank
      exact ⟨0, ⟨h.overwrote, .empty hblank⟩, fun halive => absurd halive (by simp)⟩
  · rintro k - - ⟨-, hfailed⟩
    cases hfailed

end Nor

end evlog

end KartFirmware

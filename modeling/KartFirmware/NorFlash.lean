import Mathlib.Data.List.GetD
import Mathlib.Tactic.SplitIfs

/-!
# NOR flash

The cells of a flash memory under the two operations it has: `program` only clears
bits, `erase` sets whole sectors to `0xFF`, in ascending order.  Both leave every cell
outside their range as it is.  A range is `Blank` when it reads `0xFF` throughout;
programming it gives exactly the bytes programmed (`program_blank`).

An operation cut short has done a prefix of its bytes or of its sectors, so
`program_append` and `eraseSectors` say what a cut leaves behind.
-/

namespace NorFlash

abbrev Mem := Nat → UInt8

def SECTOR : Nat := 4096

def Blank (m : Mem) (lo hi : Nat) : Prop := ∀ a < hi, lo ≤ a → m a = 0xFF

instance (m : Mem) (lo hi : Nat) : Decidable (Blank m lo hi) :=
  inferInstanceAs (Decidable (∀ a < hi, lo ≤ a → m a = 0xFF))

def program (m : Mem) (off : Nat) (bytes : List UInt8) : Mem :=
  fun a => if off ≤ a then m a &&& bytes.getD (a - off) 0xFF else m a

/-- The first `n` sectors of the range of `size` bytes at `off` are erased. -/
def eraseSectors (m : Mem) (off size n : Nat) : Mem :=
  fun a => if off ≤ a ∧ a < off + size ∧ a < off + SECTOR * n then 0xFF else m a

/-! ### Blank ranges -/

section Blank

variable {m : Mem} {lo hi : Nat}

theorem Blank.mono (h : Blank m lo hi) {lo' hi' : Nat} (hlo : lo ≤ lo') (hhi : hi' ≤ hi) :
    Blank m lo' hi' :=
  fun a ha hlo' => h a (by omega) (by omega)

theorem Blank.append {mid : Nat} (h : Blank m lo mid) (h' : Blank m mid hi) : Blank m lo hi := by
  intro a ha hlo
  rcases Nat.lt_or_ge a mid with hmid | hmid
  · exact h a hmid hlo
  · exact h' a ha hmid

end Blank

/-! ### Programming -/

section Program

variable (m : Mem) (off : Nat) (bytes : List UInt8)

theorem program_below {a : Nat} (h : a < off) : program m off bytes a = m a := by
  rw [program, if_neg (by omega)]

theorem program_above {a : Nat} (h : off + bytes.length ≤ a) : program m off bytes a = m a := by
  have hout : bytes.getD (a - off) 0xFF = 0xFF := by
    rw [List.getD_eq_default]
    omega
  rw [program, hout]
  split_ifs
  · exact UInt8.toBitVec_inj.mp BitVec.and_allOnes
  · rfl

@[simp] theorem program_nil : program m off [] = m := by
  funext a
  rcases Nat.lt_or_ge a off with h | h
  · exact program_below m off [] h
  · exact program_above m off [] h

/-- Programming two pieces, one after the other. -/
theorem program_append (bytes' : List UInt8) :
    program m off (bytes ++ bytes') =
      program (program m off bytes) (off + bytes.length) bytes' := by
  funext a
  rcases Nat.lt_or_ge a off with h | h
  · rw [program_below _ _ _ h, program_below _ _ _ (by omega), program_below _ _ _ h]
  · rcases Nat.lt_or_ge a (off + bytes.length) with h' | h'
    · rw [program_below _ _ _ h', program, program, if_pos h, if_pos h, List.getD_append]
      omega
    · rw [program, program, if_pos h, if_pos h', program_above _ _ _ h',
        List.getD_append_right _ _ _ _ (by omega), Nat.sub_add_eq]

variable {m off bytes}

theorem program_blank (h : Blank m off (off + bytes.length)) {i : Nat} (hi : i < bytes.length) :
    program m off bytes (off + i) = bytes[i] := by
  have hcell := h (off + i) (by omega) (by omega)
  rw [program, if_pos (Nat.le_add_right _ _), hcell, Nat.add_sub_cancel_left,
    List.getD_eq_getElem _ _ hi]
  exact UInt8.neg_one_and

/-- What lies above the bytes programmed stays blank. -/
theorem Blank.program {lo hi : Nat} (h : Blank m lo hi) (hlo : off + bytes.length ≤ lo) :
    Blank (program m off bytes) lo hi := by
  intro a ha hal
  rw [program_above m off bytes (by omega)]
  exact h a ha hal

end Program

/-! ### Erasing -/

section Erase

variable (m : Mem) (off size n : Nat)

theorem eraseSectors_zero : eraseSectors m off size 0 = m := by
  funext a
  rw [eraseSectors, if_neg]
  omega

/-- A range that is blank beyond the sectors erased is blank throughout. -/
theorem eraseSectors_blank_all {m : Mem} {off size n : Nat}
    (h : Blank m (off + SECTOR * n) (off + size)) :
    Blank (eraseSectors m off size n) off (off + size) := by
  intro a ha hoff
  rw [eraseSectors]
  split_ifs with hin
  · rfl
  · exact h a ha (by omega)

end Erase

end NorFlash

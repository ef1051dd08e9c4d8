import Mathlib
import KartFirmware.Binary32

/-!
# Equality of binary32 floats

C's `==` compares values, so it does not see the sign of a zero: floats that compare
equal are the same float, or two zeros (`eq_or_zero_of_beq`).  They have the same
value (`value_eq_of_beq`), and no comparison tells them apart (`le_congr_left`,
`le_congr_right`).
-/

namespace Binary32

open Float.Model Float.Model.UnpackedFloat

variable {a b : Float32}

theorem beq_iff : (a == b) = true ↔ cmp a b = some .eq := by
  change (UnpackedFloat.beq _ _) = true ↔ _
  exact beq_iff_eq

theorem eq_of_unpack (h : a.toModel.unpack = b.toModel.unpack) : a = b := by
  obtain ⟨⟨abits, avalid⟩⟩ := a
  obtain ⟨⟨bbits, bvalid⟩⟩ := b
  have hbits := (unpack_inj_of_valid avalid bvalid).mp h
  obtain rfl : abits = bbits := UInt32.toBitVec_inj.mp hbits
  rfl

theorem finite_eq_of_lex {m m' : Nat} {e e' : Int}
    (h : ((compare e e').then (compare m m')) = .eq) : m = m' ∧ e = e' := by
  rw [Ordering.then_eq_eq, compare_eq_iff_eq, compare_eq_iff_eq] at h
  exact ⟨h.2, h.1⟩

/-- Floats that compare equal are the same, but for the sign of a zero. -/
theorem eq_or_zero_of_compare {x y : UnpackedFloat} (h : x.compare y = some .eq) :
    x = y ∨ ((∃ s, x = .zero s) ∧ ∃ s, y = .zero s) := by
  cases x with
  | notANumber => exact nomatch h
  | infinity s =>
    cases y with
    | infinity t => cases s <;> cases t <;> first | exact Or.inl rfl | exact nomatch h
    | notANumber => exact nomatch h
    | zero t => cases s <;> exact nomatch h
    | finite t m e hm => cases s <;> exact nomatch h
  | zero s =>
    cases y with
    | infinity t => cases t <;> exact nomatch h
    | notANumber => exact nomatch h
    | zero t => exact Or.inr ⟨⟨s, rfl⟩, t, rfl⟩
    | finite t m e hm => cases t <;> exact nomatch h
  | finite s m e hm =>
    cases y with
    | infinity t => cases t <;> exact nomatch h
    | notANumber => exact nomatch h
    | zero t => cases s <;> exact nomatch h
    | finite t m' e' hm' =>
      left
      cases s <;> cases t
      · have hlex : ((compare e e').then (compare m m')).swap = .eq := Option.some.inj h
        obtain ⟨rfl, rfl⟩ := finite_eq_of_lex (by simpa using hlex)
        rfl
      · exact nomatch h
      · exact nomatch h
      · have hlex : (compare e e').then (compare m m') = .eq := Option.some.inj h
        obtain ⟨rfl, rfl⟩ := finite_eq_of_lex hlex
        rfl

theorem unpack_zero : (0 : Float32).toModel.unpack = .zero .positive := by
  have hzero : (0 : Float32) = Float32.ofModel (.pack (.zero .positive)) := by decide +kernel
  rw [hzero]
  rfl

theorem beq_zero_of_unpack {s : Sign} (h : a.toModel.unpack = .zero s) : (a == 0) = true := by
  rw [beq_iff, cmp, h, unpack_zero]
  rfl

theorem eq_or_zero_of_beq (h : (a == b) = true) : a = b ∨ ((a == 0) = true ∧ (b == 0) = true) := by
  rcases eq_or_zero_of_compare (beq_iff.mp h) with hsame | ⟨⟨s, hs⟩, t, ht⟩
  · exact Or.inl (eq_of_unpack hsame)
  · exact Or.inr ⟨beq_zero_of_unpack hs, beq_zero_of_unpack ht⟩

theorem value_eq_of_beq (h : (a == b) = true) : value a = value b := by
  rcases eq_or_zero_of_compare (beq_iff.mp h) with hsame | ⟨⟨s, hs⟩, t, ht⟩
  · rw [value, value, hsame]
  · rw [value, value, hs, ht]
    rfl

theorem isFinite_of_beq (h : (a == b) = true) (hb : b.isFinite) : a.isFinite := by
  change a.toModel.unpack.isFinite = true
  change b.toModel.unpack.isFinite = true at hb
  rcases eq_or_zero_of_compare (beq_iff.mp h) with hsame | ⟨⟨s, hs⟩, -⟩
  · rwa [hsame]
  · rw [hs]
    rfl

theorem compare_zero_congr (x : UnpackedFloat) (s t : Sign) :
    x.compare (.zero s) = x.compare (.zero t) := by
  cases x with
  | infinity u => cases u <;> rfl
  | notANumber => rfl
  | zero u => rfl
  | finite u m e h => cases u <;> rfl

theorem cmp_congr_right (h : (a == b) = true) (c : Float32) : cmp c a = cmp c b := by
  rcases eq_or_zero_of_compare (beq_iff.mp h) with hsame | ⟨⟨s, hs⟩, t, ht⟩
  · rw [cmp, cmp, hsame]
  · rw [cmp, cmp, hs, ht]
    exact compare_zero_congr _ s t

theorem le_congr_right (h : (a == b) = true) (c : Float32) : c ≤ a ↔ c ≤ b := by
  rw [le_iff, le_iff, cmp_congr_right h]

theorem le_congr_left (h : (a == b) = true) (c : Float32) : a ≤ c ↔ b ≤ c := by
  rw [le_iff, le_iff, cmp_swap a, cmp_swap b, cmp_congr_right h]

theorem not_lt_of_le (h : a ≤ b) : ¬ b < a := by
  intro hlt
  rw [lt_iff] at hlt
  rw [le_iff, cmp_swap, hlt] at h
  exact Bool.noConfusion h

end Binary32

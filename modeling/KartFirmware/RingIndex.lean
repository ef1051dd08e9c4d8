import Mathlib.Data.Nat.ModEq
import Mathlib.Data.List.Basic
import Mathlib.Logic.Function.Basic

/-!
# Free-running ring indices

A ring of `N` slots with two 32-bit indices that are never reduced.  The indices stand
for unbounded counts, taken modulo `2^32`: as long as the counts are less than `2^32`
apart, their difference is that of the indices (`toNat_sub_ofNat`), and with `N`
dividing `2^32` so is the slot (`slot_ofNat`).

`Holds` says that a ring holds the elements of a list from a count on.  Writing the
slot of the next element leaves it so while fewer than `N` elements are held
(`Holds.update`).
-/

namespace RingIndex

/-! ### Counts and indices -/

theorem toNat_sub_ofNat {a b : Nat} (h : b ≤ a) (hlt : a - b < 2 ^ 32) :
    (UInt32.ofNat a - UInt32.ofNat b).toNat = a - b := by
  rw [UInt32.toNat_sub, UInt32.toNat_ofNat', UInt32.toNat_ofNat']
  omega

theorem ofNat_succ (a : Nat) : UInt32.ofNat a + 1 = UInt32.ofNat (a + 1) := by
  apply UInt32.toNat_inj.mp
  rw [UInt32.toNat_add, UInt32.toNat_ofNat', UInt32.toNat_ofNat', UInt32.toNat_one]
  omega

theorem slot_ofNat {N : Nat} (hN : N ∣ 2 ^ 32) (a : Nat) : (UInt32.ofNat a).toNat % N = a % N := by
  rw [UInt32.toNat_ofNat', Nat.mod_mod_of_dvd _ hN]

/-- Counts less than a ring apart have different slots. -/
theorem slot_ne {N i j : Nat} (hij : i < j) (hj : j < i + N) : i % N ≠ j % N := by
  intro hsame
  have hdvd : N ∣ j - i := (Nat.modEq_iff_dvd' hij.le).mp hsame
  have hle := Nat.le_of_dvd (by omega) hdvd
  omega

/-! ### What a ring holds -/

variable {α : Type*}

/-- The ring holds the elements of the list from the count `n` on, each in its slot. -/
def Holds (N : Nat) (ring : Nat → α) (l : List α) (n : Nat) : Prop :=
  ∀ i, n ≤ i → ∀ x, l[i]? = some x → ring (i % N) = x

variable {N : Nat} {ring : Nat → α} {l : List α} {n : Nat}

theorem Holds.mono {m : Nat} (h : Holds N ring l n) (hnm : n ≤ m) : Holds N ring l m :=
  fun i hi => h i (hnm.trans hi)

/-- The slot of the next element is free while fewer than `N` are held. -/
theorem slot_free (hroom : l.length < n + N) {i : Nat} (hi : n ≤ i) (hil : i < l.length) :
    i % N ≠ l.length % N :=
  slot_ne hil (by omega)

theorem Holds.update (h : Holds N ring l n) (hroom : l.length < n + N) (x : α) :
    Holds N (Function.update ring (l.length % N) x) l n := by
  intro i hi y hy
  obtain ⟨hil, -⟩ := List.getElem?_eq_some_iff.mp hy
  rw [Function.update_of_ne (slot_free hroom hi hil)]
  exact h i hi y hy

/-- With the next element in its slot the ring holds one more. -/
theorem Holds.push (h : Holds N ring l n) {x : α} (hx : ring (l.length % N) = x) :
    Holds N ring (l ++ [x]) n := by
  intro i hi y hy
  rcases Nat.lt_or_ge i l.length with hil | hil
  · rw [List.getElem?_append_left hil] at hy
    exact h i hi y hy
  · obtain ⟨hlen, -⟩ := List.getElem?_eq_some_iff.mp hy
    rw [List.length_append, List.length_singleton] at hlen
    obtain rfl : i = l.length := by omega
    rw [List.getElem?_concat_length] at hy
    exact hx.trans (Option.some.inj hy)

end RingIndex

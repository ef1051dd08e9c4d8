import Mathlib.Data.List.Basic

/-!
# Edges of a Boolean signal

The edges of a signal `b : Nat → Bool` up to a time, in order: the new value at
each time at which the signal changes.  They alternate (`edges_getElem`), and how
many there were tells the value of the signal (`edges_parity`).
-/

namespace Edges

def edgeAt (b : Nat → Bool) (k : Nat) : Option Bool :=
  if b (k + 1) = b k then none else some (b (k + 1))

/-- The edges before time `n`. -/
def edges (b : Nat → Bool) (n : Nat) : List Bool := (List.range n).filterMap (edgeAt b)

variable {b : Nat → Bool}

theorem edges_succ (b : Nat → Bool) (n : Nat) :
    edges b (n + 1) = edges b n ++ (edgeAt b n).toList := by
  rw [edges, List.range_succ, List.filterMap_append, ← edges]
  cases hedge : edgeAt b n <;> simp [hedge]

theorem edges_succ_of_eq {n : Nat} (h : b (n + 1) = b n) : edges b (n + 1) = edges b n := by
  rw [edges_succ, edgeAt, if_pos h]
  exact List.append_nil _

theorem edges_succ_of_ne {n : Nat} (h : b (n + 1) ≠ b n) :
    edges b (n + 1) = edges b n ++ [b (n + 1)] := by
  rw [edges_succ, edgeAt, if_neg h]
  rfl

/-- After an even number of edges the signal has its first value. -/
theorem edges_parity (b : Nat → Bool) (n : Nat) :
    b n = if (edges b n).length % 2 = 0 then b 0 else !b 0 := by
  induction n with
  | zero => rfl
  | succ n ih =>
    by_cases hsame : b (n + 1) = b n
    · rw [edges_succ_of_eq hsame, hsame]
      exact ih
    · rw [edges_succ_of_ne hsame, List.length_append, List.length_singleton,
        Bool.eq_not.mpr hsame, ih]
      rcases Nat.mod_two_eq_zero_or_one (edges b n).length with heven | hodd
      · rw [if_pos heven, if_neg (by omega)]
      · rw [if_neg (by omega), if_pos (by omega), Bool.not_not]

/-- The edges alternate, and the first one leaves the first value. -/
theorem edges_getElem (b : Nat → Bool) (n i : Nat) (h : i < (edges b n).length) :
    (edges b n)[i] = if i % 2 = 0 then !b 0 else b 0 := by
  induction n with
  | zero => exact absurd h (Nat.not_lt_zero i)
  | succ n ih =>
    by_cases hsame : b (n + 1) = b n
    · simp only [edges_succ_of_eq hsame] at h ⊢
      exact ih h
    · simp only [edges_succ_of_ne hsame, List.length_append, List.length_singleton] at h ⊢
      rcases Nat.lt_or_ge i (edges b n).length with hold | hnew
      · rw [List.getElem_append_left hold]
        exact ih hold
      · -- the new edge: its value is the one the signal did not have
        have hi : i = (edges b n).length := by omega
        subst hi
        rw [List.getElem_concat_length rfl, Bool.eq_not.mpr hsame, edges_parity b n]
        split_ifs
        · rfl
        · exact Bool.not_not _

end Edges

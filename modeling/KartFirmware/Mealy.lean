import Mathlib.Logic.Basic

/-!
# Runs of a deterministic machine

A machine reads one input per step and emits one output per step.  Its runs are
taken over infinite input words `w : Nat → ι`: the state before step `n` depends
on the inputs before it only (`stateAt_congr`), and the output of step `n` on its
own besides, so a property of step `n` proved here is a property of every finite
run that has a step `n`.

Three proof rules are packaged once.  `stateAt_induction` turns a step lemma into
a run lemma, where the invariant may talk about the step number and hence about
the whole input history.  `Lockstep.outAt` does the same for a relation between
two machines (or two runs of one machine), which is how refinements, symmetries
and noninterference properties are stated.  `stateAt_onset` compares when two
properties of states first show up in a run.
-/

namespace Mealy

/-- A deterministic machine with states `σ`, inputs `ι` and outputs `ο`. -/
structure Machine (σ ι ο : Type*) where
  init : σ
  step : σ → ι → σ × ο

variable {σ ι ο σ' ι' ο' : Type*}

namespace Machine

variable (M : Machine σ ι ο)

def stateAt (w : Nat → ι) : Nat → σ
  | 0 => M.init
  | n + 1 => (M.step (stateAt w n) (w n)).1

def outAt (w : Nat → ι) (n : Nat) : ο := (M.step (M.stateAt w n) (w n)).2

@[simp] theorem stateAt_zero (w : Nat → ι) : M.stateAt w 0 = M.init := rfl

theorem stateAt_succ (w : Nat → ι) (n : Nat) :
    M.stateAt w (n + 1) = (M.step (M.stateAt w n) (w n)).1 := rfl

/-! ### Causality -/

theorem stateAt_congr {w w' : Nat → ι} {n : Nat} (h : ∀ m < n, w m = w' m) :
    M.stateAt w n = M.stateAt w' n := by
  induction n with
  | zero => rfl
  | succ n ih =>
    have hprev := ih fun m hm => h m (Nat.lt_succ_of_lt hm)
    rw [stateAt_succ, stateAt_succ, hprev, h n (Nat.lt_succ_self n)]

/-! ### The invariant rule -/

/-- A predicate of the step number and the state that holds initially and is
kept by every step of the run holds before every step. -/
theorem stateAt_induction {w : Nat → ι} (I : Nat → σ → Prop) (hinit : I 0 M.init)
    (hstep : ∀ n s, I n s → I (n + 1) (M.step s (w n)).1) :
    ∀ n, I n (M.stateAt w n) := by
  intro n
  induction n with
  | zero => exact hinit
  | succ n ih => exact hstep n _ ih

/-! ### Onsets -/

/-- One property of states shows up in the first `n` steps exactly when the other does, if
they agree on every step that starts where the first does not hold.  The invariant `I` holds
before every step. -/
theorem stateAt_onset {w : Nat → ι} {P Q : σ → Prop} (I : σ → Prop)
    (hI : ∀ n, I (M.stateAt w n)) (hinit : ¬ P M.init)
    (hstep : ∀ n s, I s → ¬ P s → (P (M.step s (w n)).1 ↔ Q (M.step s (w n)).1)) (n : Nat) :
    (∃ k < n, P (M.stateAt w (k + 1))) ↔ ∃ k < n, Q (M.stateAt w (k + 1)) := by
  induction n with
  | zero => simp
  | succ n ih =>
    rw [Nat.exists_lt_succ_right, Nat.exists_lt_succ_right]
    by_cases hsome : ∃ k < n, P (M.stateAt w (k + 1))
    · exact iff_of_true (.inl hsome) (.inl (ih.mp hsome))
    · -- `P` has not shown up, so it does not hold before the last step
      have hnot : ¬ P (M.stateAt w n) := by
        cases n with
        | zero => exact hinit
        | succ n => exact fun hP => hsome ⟨n, Nat.lt_succ_self n, hP⟩
      rw [or_iff_right hsome, or_iff_right (mt ih.mpr hsome)]
      exact hstep n _ (hI n) hnot

/-! ### A machine whose outputs drive a device -/

/-- `M` with a device of states `δ` attached: every output of `M` is applied to
the device by `apply`, and the new device state is emitted next to it. -/
def attach {δ : Type*} (device : δ) (apply : δ → ο → δ) : Machine (σ × δ) ι (ο × δ) where
  init := (M.init, device)
  step s i :=
    let r := M.step s.1 i
    let d := apply s.2 r.2
    ((r.1, d), (r.2, d))

theorem attach_stateAt_fst {δ : Type*} (device : δ) (apply : δ → ο → δ) (w : Nat → ι) (n : Nat) :
    ((M.attach device apply).stateAt w n).1 = M.stateAt w n := by
  induction n with
  | zero => rfl
  | succ n ih =>
    rw [stateAt_succ, stateAt_succ, ← ih]
    rfl

theorem attach_outAt_fst {δ : Type*} (device : δ) (apply : δ → ο → δ) (w : Nat → ι) (n : Nat) :
    ((M.attach device apply).outAt w n).1 = M.outAt w n := by
  simp only [outAt, ← M.attach_stateAt_fst device apply w n]
  rfl

/-- An invariant of the device that every application keeps holds before every
step of the attached machine. -/
theorem attach_stateAt_snd {δ : Type*} {device : δ} {apply : δ → ο → δ} {w : Nat → ι}
    (I : δ → Prop) (hinit : I device) (happly : ∀ d o, I d → I (apply d o)) (n : Nat) :
    I ((M.attach device apply).stateAt w n).2 :=
  (M.attach device apply).stateAt_induction (fun _ s => I s.2) hinit
    (fun _ _ h => happly _ _ h) n

end Machine

/-! ### Two machines in lockstep -/

/-- `Rs` relates the states of two machines so that related inputs keep them
related and give outputs related by `Ro`. -/
structure Lockstep (M : Machine σ ι ο) (N : Machine σ' ι' ο') (Ri : ι → ι' → Prop)
    (Rs : σ → σ' → Prop) (Ro : ο → ο' → Prop) : Prop where
  init : Rs M.init N.init
  step : ∀ {s t a b}, Rs s t → Ri a b →
    Rs (M.step s a).1 (N.step t b).1 ∧ Ro (M.step s a).2 (N.step t b).2

namespace Lockstep

variable {M : Machine σ ι ο} {N : Machine σ' ι' ο'} {Ri : ι → ι' → Prop}
  {Rs : σ → σ' → Prop} {Ro : ο → ο' → Prop}

theorem stateAt (h : Lockstep M N Ri Rs Ro) {w : Nat → ι} {w' : Nat → ι'}
    (hw : ∀ n, Ri (w n) (w' n)) (n : Nat) : Rs (M.stateAt w n) (N.stateAt w' n) := by
  induction n with
  | zero => exact h.init
  | succ n ih => exact (h.step ih (hw n)).1

/-- Two runs over related input words emit related outputs at every step. -/
theorem outAt (h : Lockstep M N Ri Rs Ro) {w : Nat → ι} {w' : Nat → ι'}
    (hw : ∀ n, Ri (w n) (w' n)) (n : Nat) : Ro (M.outAt w n) (N.outAt w' n) :=
  (h.step (h.stateAt hw n) (hw n)).2

end Lockstep

/-! ### Latches -/

/-- What a step sets and no step clears is set exactly when some step has set it. -/
theorem latch_iff {P Q : Nat → Prop} (hinit : ¬ P 0)
    (hstep : ∀ n, P (n + 1) ↔ P n ∨ Q (n + 1)) (n : Nat) : P n ↔ ∃ k < n, Q (k + 1) := by
  induction n with
  | zero => simp [hinit]
  | succ n ih => rw [hstep, ih, Nat.exists_lt_succ_right]

end Mealy

import Mathlib.Algebra.Order.Field.Basic
import Mathlib.Algebra.Order.Group.MinMax
import Mathlib.Tactic.Linarith
import Mathlib.Tactic.Ring

/-!
# Rate limiters

`approach` moves a current value toward a target by at most a step.  `asymStep`
is the limiter built from it with two steps: one for growth away from zero, one
for the fall back toward zero, where a reversal is a fall to zero followed by a
growth within the same step, and a step that is not positive disables its side.

What the asymmetric limiter promises is the relation `Limited` between the value
before and the value after (`asymStep_limited`).  It is odd (`asymStep_neg`) and
never leaves a symmetric band that holds both value and target
(`abs_asymStep_le`).
-/

set_option linter.unusedSectionVars false

namespace RateLimit

variable {α : Type*} [Field α] [LinearOrder α] [IsStrictOrderedRing α]

/-! ### Approaching a target -/

/-- The target, clamped to the values within `step` of `current`. -/
def approach (target current step : α) : α :=
  max (current - step) (min target (current + step))

/-- `approach`, or the target at once if the step is not positive. -/
def limit (target current step : α) : α :=
  if step ≤ 0 then target else approach target current step

variable {t c δ : α}

theorem approach_up (hδ : 0 ≤ δ) (h : c ≤ t) : approach t c δ = min t (c + δ) := by
  refine max_eq_right (le_min ?_ ?_) <;> linarith

theorem approach_down (hδ : 0 ≤ δ) (h : t ≤ c) : approach t c δ = max (c - δ) t := by
  rw [approach, min_eq_left (by linarith)]

theorem approach_neg (hδ : 0 ≤ δ) : approach (-t) (-c) δ = -approach t c δ := by
  rcases le_total c t with h | h
  · rw [approach_up hδ h, approach_down hδ (neg_le_neg h), ← max_neg_neg, max_comm]
    congr 1
    ring
  · rw [approach_down hδ h, approach_up hδ (neg_le_neg h), ← min_neg_neg, min_comm]
    congr 1
    ring

/-- A rising target: the limited value lies between the two, one step up at most. -/
theorem limit_up (h : c ≤ t) :
    c ≤ limit t c δ ∧ limit t c δ ≤ t ∧ (0 < δ → limit t c δ ≤ c + δ) := by
  unfold limit
  split_ifs with hδ
  · exact ⟨h, le_refl t, fun hpos => absurd hδ (not_le.mpr hpos)⟩
  · have hpos : 0 < δ := not_le.mp hδ
    rw [approach_up hpos.le h]
    exact ⟨le_min h (by linarith), min_le_left _ _, fun _ => min_le_right _ _⟩

/-- A falling target: the limited value lies between the two, one step down at most. -/
theorem limit_down (h : t ≤ c) :
    t ≤ limit t c δ ∧ limit t c δ ≤ c ∧ (0 < δ → c - δ ≤ limit t c δ) := by
  unfold limit
  split_ifs with hδ
  · exact ⟨le_refl t, h, fun hpos => absurd hδ (not_le.mpr hpos)⟩
  · have hpos : 0 < δ := not_le.mp hδ
    rw [approach_down hpos.le h]
    exact ⟨le_max_right _ _, max_le (by linarith) h, fun _ => le_max_left _ _⟩

theorem limit_neg : limit (-t) (-c) δ = -limit t c δ := by
  unfold limit
  split_ifs with hδ
  · rfl
  · exact approach_neg (not_le.mp hδ).le

theorem abs_limit_le {bound : α} (ht : |t| ≤ bound) (hc : |c| ≤ bound) :
    |limit t c δ| ≤ bound := by
  rw [abs_le] at ht hc ⊢
  rcases le_total c t with h | h
  · obtain ⟨hlow, hhigh, -⟩ := limit_up (δ := δ) h
    exact ⟨hc.1.trans hlow, hhigh.trans ht.2⟩
  · obtain ⟨hlow, hhigh, -⟩ := limit_down (δ := δ) h
    exact ⟨ht.1.trans hlow, hhigh.trans hc.2⟩

/-! ### Two steps -/

/-- The limiter on one side of zero: `up` if the target lies farther out. -/
def sideStep (target current up dn : α) : α :=
  limit target current (if |target| > |current| then up else dn)

/-- The asymmetric limiter.  A reversal falls to zero first and grows on the
other side within the same step only if the fall has arrived. -/
def asymStep (target current up dn : α) : α :=
  if target * current < 0 then
    if dn > 0 then
      if 0 = approach 0 current dn then sideStep target 0 up dn else approach 0 current dn
    else sideStep target 0 up dn
  else sideStep target current up dn

variable {up dn p q : α}

theorem sideStep_neg : sideStep (-t) (-c) up dn = -sideStep t c up dn := by
  rw [sideStep, sideStep, abs_neg, abs_neg, limit_neg]

theorem asymStep_neg : asymStep (-t) (-c) up dn = -asymStep t c up dn := by
  unfold asymStep
  rw [neg_mul_neg]
  split_ifs with hrev hdn hz hz' hz'
  · rw [← neg_zero, sideStep_neg, neg_zero]
  · have hfall := approach_neg (t := 0) (c := c) hdn.le
    rw [neg_zero] at hfall
    exact absurd (by rw [hfall] at hz; linarith) hz'
  · have hfall := approach_neg (t := 0) (c := c) hdn.le
    rw [neg_zero] at hfall
    exact absurd (by rw [hfall]; linarith) hz
  · have hfall := approach_neg (t := 0) (c := c) hdn.le
    rwa [neg_zero] at hfall
  · rw [← neg_zero, sideStep_neg, neg_zero]
  · exact sideStep_neg

theorem abs_sideStep_le {bound : α} (ht : |t| ≤ bound) (hc : |c| ≤ bound) :
    |sideStep t c up dn| ≤ bound :=
  abs_limit_le ht hc

theorem abs_asymStep_le {bound : α} (ht : |t| ≤ bound) (hc : |c| ≤ bound) :
    |asymStep t c up dn| ≤ bound := by
  have hzero : |(0 : α)| ≤ bound := by
    rw [abs_zero]
    exact (abs_nonneg c).trans hc
  unfold asymStep
  split_ifs with hrev hdn hz
  · exact abs_sideStep_le ht hzero
  · have hfall := abs_limit_le (δ := dn) hzero hc
    rwa [limit, if_neg (not_le.mpr hdn)] at hfall
  · exact abs_sideStep_le ht hzero
  · exact abs_sideStep_le ht hc

/-! ### What the asymmetric limiter promises -/

/-- From `p` to `q` in one step: growth away from zero is at most `up`, the fall
toward zero at most `dn`, and the two sides of a reversal each keep their bound.
A step that is not positive bounds nothing. -/
structure Limited (up dn p q : α) : Prop where
  grow : 0 < up → 0 ≤ p * q → |q| - |p| ≤ up
  shrink : 0 < dn → 0 ≤ p * q → |p| - |q| ≤ dn
  reverse : p * q < 0 → (0 < dn → |p| ≤ dn) ∧ (0 < up → |q| ≤ up)

theorem Limited.neg (h : Limited up dn p q) : Limited up dn (-p) (-q) := by
  obtain ⟨hgrow, hshrink, hrev⟩ := h
  constructor <;> simpa only [neg_mul_neg, abs_neg]

theorem Limited.scale {k : α} (hk : 0 < k) (h : Limited up dn p q) :
    Limited (k * up) (k * dn) (k * p) (k * q) := by
  have hprod : k * p * (k * q) = k * k * (p * q) := by ring
  have hkk : 0 < k * k := mul_pos hk hk
  have habs : ∀ x : α, |k * x| = k * |x| := fun x => by rw [abs_mul, abs_of_pos hk]
  constructor
  · intro hup hside
    rw [hprod] at hside
    have hle := h.grow (pos_of_mul_pos_right hup hk.le) (nonneg_of_mul_nonneg_right hside hkk)
    rw [habs, habs, ← mul_sub]
    exact mul_le_mul_of_nonneg_left hle hk.le
  · intro hdn hside
    rw [hprod] at hside
    have hle := h.shrink (pos_of_mul_pos_right hdn hk.le) (nonneg_of_mul_nonneg_right hside hkk)
    rw [habs, habs, ← mul_sub]
    exact mul_le_mul_of_nonneg_left hle hk.le
  · intro hside
    rw [hprod] at hside
    obtain ⟨hfall, hrise⟩ := h.reverse (neg_of_mul_neg_right hside hkk.le)
    rw [habs, habs]
    exact ⟨fun hdn => mul_le_mul_of_nonneg_left (hfall (pos_of_mul_pos_right hdn hk.le)) hk.le,
      fun hup => mul_le_mul_of_nonneg_left (hrise (pos_of_mul_pos_right hup hk.le)) hk.le⟩

/-- Starting from zero the value takes the side of the target, one `up` at most. -/
theorem sideStep_zero (up dn : α) (h : t ≤ 0) :
    sideStep t 0 up dn ≤ 0 ∧ (0 < up → |sideStep t 0 up dn| ≤ up) := by
  unfold sideStep
  split_ifs with hout
  · obtain ⟨-, hhigh, hlow⟩ := limit_down (δ := up) h
    refine ⟨hhigh, fun hup => ?_⟩
    rw [abs_of_nonpos hhigh]
    linarith [hlow hup]
  · have ht : t = 0 := by simpa using hout
    subst ht
    obtain ⟨hlow, hhigh, -⟩ := limit_up (t := 0) (c := (0 : α)) (δ := dn) (le_refl 0)
    rw [le_antisymm hhigh hlow, abs_zero]
    exact ⟨le_refl 0, fun hup => hup.le⟩

theorem sideStep_limited (hc : 0 < c) (ht : 0 ≤ t) : Limited up dn c (sideStep t c up dn) := by
  unfold sideStep
  rw [abs_of_nonneg ht, abs_of_pos hc]
  split_ifs with hout
  · obtain ⟨hlow, -, hstep⟩ := limit_up (δ := up) hout.le
    have hpos : 0 < limit t c up := hc.trans_le hlow
    constructor
    · intro hup _
      rw [abs_of_pos hpos, abs_of_pos hc]
      linarith [hstep hup]
    · intro hdn _
      rw [abs_of_pos hpos, abs_of_pos hc]
      linarith
    · intro hside
      exact absurd hside (not_lt.mpr (mul_pos hc hpos).le)
  · obtain ⟨hlow, hhigh, hstep⟩ := limit_down (δ := dn) (not_lt.mp hout)
    have hnonneg : 0 ≤ limit t c dn := ht.trans hlow
    constructor
    · intro hup _
      rw [abs_of_nonneg hnonneg, abs_of_pos hc]
      linarith
    · intro hdn _
      rw [abs_of_nonneg hnonneg, abs_of_pos hc]
      linarith [hstep hdn]
    · intro hside
      exact absurd hside (not_lt.mpr (mul_nonneg hc.le hnonneg))

/-- A value that has crossed to the other side has not grown. -/
theorem grow_of_crossing {q : α} (hc : 0 < c) (hside : q ≤ 0) (hup : 0 < up)
    (hsame : 0 ≤ c * q) : |q| - |c| ≤ up := by
  have hq : q = 0 := le_antisymm hside (nonneg_of_mul_nonneg_right hsame hc)
  rw [hq, abs_zero]
  linarith [abs_nonneg c]

theorem asymStep_limited_of_pos (hc : 0 < c) : Limited up dn c (asymStep t c up dn) := by
  unfold asymStep
  split_ifs with hrev hdn hz
  · -- the fall has arrived at zero and the value grows on the other side
    obtain ⟨hside, hrise⟩ := sideStep_zero up dn (neg_of_mul_neg_left hrev hc.le).le
    have hfall : c ≤ dn := by
      have hle : c - dn ≤ approach 0 c dn := le_max_left _ _
      linarith
    constructor
    · exact grow_of_crossing hc hside
    · intro _ hsame
      rw [abs_of_pos hc]
      linarith [abs_nonneg (sideStep t 0 up dn)]
    · intro _
      exact ⟨fun _ => by rwa [abs_of_pos hc], hrise⟩
  · -- the fall is still on its way
    have hdown : approach 0 c dn = max (c - dn) 0 := approach_down hdn.le hc.le
    have hpos : 0 < approach 0 c dn := by
      have hle : 0 ≤ approach 0 c dn := by
        rw [hdown]
        exact le_max_right _ _
      exact lt_of_le_of_ne hle hz
    have hq : approach 0 c dn = c - dn := by
      rw [hdown] at hpos ⊢
      rcases max_choice (c - dn) 0 with hmax | hmax
      · exact hmax
      · rw [hmax] at hpos
        exact absurd hpos (lt_irrefl 0)
    rw [hq] at hpos ⊢
    constructor
    · intro hup _
      rw [abs_of_pos hpos, abs_of_pos hc]
      linarith
    · intro _ _
      rw [abs_of_pos hpos, abs_of_pos hc]
      linarith
    · intro hside
      exact absurd hside (not_lt.mpr (mul_pos hc hpos).le)
  · -- without a falling limit the value starts on the other side at once
    obtain ⟨hside, hrise⟩ := sideStep_zero up dn (neg_of_mul_neg_left hrev hc.le).le
    constructor
    · exact grow_of_crossing hc hside
    · intro hpos _
      exact absurd hpos hdn
    · intro _
      exact ⟨fun hpos => absurd hpos hdn, hrise⟩
  · exact sideStep_limited hc (nonneg_of_mul_nonneg_left (not_lt.mp hrev) hc)

/-- **One step of the asymmetric limiter is limited.** -/
theorem asymStep_limited (target current up dn : α) :
    Limited up dn current (asymStep target current up dn) := by
  rcases lt_trichotomy current 0 with hneg | hzero | hpos
  · have hlim : Limited up dn (-current) (asymStep (-target) (-current) up dn) :=
      asymStep_limited_of_pos (neg_pos.mpr hneg)
    rw [asymStep_neg] at hlim
    simpa only [neg_neg] using hlim.neg
  · subst hzero
    have hstep : asymStep target 0 up dn = sideStep target 0 up dn := by
      rw [asymStep, mul_zero, if_neg (lt_irrefl 0)]
    have hrise : 0 < up → |sideStep target 0 up dn| ≤ up := by
      rcases le_total target 0 with ht | ht
      · exact (sideStep_zero up dn ht).2
      · have h := (sideStep_zero up dn (neg_nonpos.mpr ht)).2
        rwa [← neg_zero, sideStep_neg, neg_zero, abs_neg] at h
    rw [hstep]
    constructor
    · intro hup _
      rw [abs_zero, sub_zero]
      exact hrise hup
    · intro hdn _
      rw [abs_zero]
      linarith [abs_nonneg (sideStep target 0 up dn)]
    · intro hside
      rw [zero_mul] at hside
      exact absurd hside (lt_irrefl 0)
  · exact asymStep_limited_of_pos hpos

end RateLimit

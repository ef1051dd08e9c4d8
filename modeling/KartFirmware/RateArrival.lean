import KartFirmware.RateLimit
import Mathlib.Algebra.Order.Floor.Ring
import Mathlib.Tactic.NormNum

/-!
# Arrival of a rate limiter

The asymmetric limiter applied again and again with one target.  Each step moves
toward the target and not past it (`asymStep_between`).  `InReach k` bounds what is
left of the way by `k` steps, with one measure for each phase: the distance on the
side of the target, and fall plus rise across zero.  A step takes one off
(`InReach.step`), so a sequence of steps arrives (`arrives`) after no more steps than
the two distances need at the two rates (`inReach_moveTicks`).
-/

set_option linter.unusedSectionVars false

namespace RateLimit

variable {α : Type*} [Field α] [LinearOrder α] [IsStrictOrderedRing α]

variable {t c δ up dn : α}

/-! ### One step toward the target -/

theorem asymStep_same (h : 0 ≤ t * c) : asymStep t c up dn = sideStep t c up dn := by
  rw [asymStep, if_neg (not_lt.mpr h)]

/-- A reversal upward: the fall to zero, and once it has arrived the rise. -/
theorem asymStep_reverse (hc : c < 0) (ht : 0 < t) :
    asymStep t c up dn = if 0 < dn ∧ c + dn < 0 then c + dn else limit t 0 up := by
  have hrise : sideStep t 0 up dn = limit t 0 up := by
    rw [sideStep, abs_zero, abs_of_pos ht, if_pos ht]
  rw [asymStep, if_pos (mul_neg_of_pos_of_neg ht hc), hrise]
  by_cases hdn : 0 < dn
  · rw [if_pos hdn, approach_up hdn.le hc.le]
    by_cases hfall : c + dn < 0
    · rw [min_eq_right hfall.le, if_neg hfall.ne', if_pos ⟨hdn, hfall⟩]
    · rw [min_eq_left (not_lt.mp hfall), if_pos rfl, if_neg fun h => hfall h.2]
  · rw [if_neg hdn, if_neg fun h => hdn h.1]

/-- A target above is approached from below. -/
theorem asymStep_between (up dn : α) (h : c ≤ t) :
    c ≤ asymStep t c up dn ∧ asymStep t c up dn ≤ t := by
  rcases lt_or_ge (t * c) 0 with hrev | hsame
  · have hc : c < 0 := by
      by_contra hnonneg
      have ht := (not_lt.mp hnonneg).trans h
      exact absurd hrev (not_lt.mpr (mul_nonneg ht (not_lt.mp hnonneg)))
    have ht : 0 < t := pos_of_mul_neg_left hrev hc.le
    rw [asymStep_reverse hc ht]
    split_ifs with hfall
    · exact ⟨by linarith [hfall.1], by linarith [hfall.2]⟩
    · obtain ⟨hlow, hhigh, -⟩ := limit_up (δ := up) ht.le
      exact ⟨hc.le.trans hlow, hhigh⟩
  · rw [asymStep_same hsame]
    obtain ⟨hlow, hhigh, -⟩ := limit_up (δ := if |t| > |c| then up else dn) h
    exact ⟨hlow, hhigh⟩

theorem asymStep_between' (up dn : α) (h : t ≤ c) :
    t ≤ asymStep t c up dn ∧ asymStep t c up dn ≤ c := by
  have hneg := asymStep_between up dn (neg_le_neg h)
  rw [asymStep_neg] at hneg
  exact ⟨neg_le_neg_iff.mp hneg.2, neg_le_neg_iff.mp hneg.1⟩

theorem abs_asymStep_zero_le (up dn c : α) : |asymStep 0 c up dn| ≤ |c| :=
  abs_asymStep_le (by rw [abs_zero]; exact abs_nonneg c) (le_refl |c|)

theorem asymStep_self (up dn : α) : asymStep t t up dn = t :=
  le_antisymm (asymStep_between up dn (le_refl t)).2 (asymStep_between up dn (le_refl t)).1

/-! ### How far away the target is -/

/-- `k` steps of `δ` cover the distance `d`; a step that is not positive covers any
distance at once. -/
def Covers (δ d : α) (k : ℕ) : Prop := (δ ≤ 0 → 0 < d → 1 ≤ k) ∧ (0 < δ → d ≤ k * δ)

theorem Covers.eq_zero {d : α} (h : Covers δ d 0) (hd : 0 ≤ d) : d = 0 := by
  rcases hd.eq_or_lt with hzero | hpos
  · exact hzero.symm
  · rcases lt_or_ge 0 δ with hδ | hδ
    · have hle := h.2 hδ
      rw [Nat.cast_zero, zero_mul] at hle
      exact absurd hle (not_le.mpr hpos)
    · exact absurd (h.1 hδ hpos) (by norm_num)

theorem Covers.mono {d d' : α} {k k' : ℕ} (h : Covers δ d k) (hd : d' ≤ d) (hk : k ≤ k') :
    Covers δ d' k' := by
  constructor
  · intro hδ hpos
    exact (h.1 hδ (hpos.trans_le hd)).trans hk
  · intro hδ
    have hcast : (k : α) ≤ k' := by exact_mod_cast hk
    exact (hd.trans (h.2 hδ)).trans (mul_le_mul_of_nonneg_right hcast hδ.le)

/-- One limited step toward a target takes one off. -/
theorem Covers.limit {k : ℕ} (h : Covers δ |t - c| (k + 1)) :
    Covers δ |t - RateLimit.limit t c δ| k := by
  rw [RateLimit.limit]
  split_ifs with hδ
  · rw [sub_self, abs_zero]
    constructor
    · intro _ hpos
      exact absurd hpos (lt_irrefl 0)
    · intro hpos
      exact absurd hδ (not_le.mpr hpos)
  · have hpos : 0 < δ := not_le.mp hδ
    have hcover := h.2 hpos
    have hk : (0 : α) ≤ k * δ := mul_nonneg (Nat.cast_nonneg k) hpos.le
    rw [Nat.cast_succ, add_mul, one_mul] at hcover
    constructor
    · intro hle
      exact absurd hle hδ
    · intro _
      rw [abs_le] at hcover ⊢
      rcases le_total c t with hside | hside
      · rw [approach_up hpos.le hside]
        rcases min_choice t (c + δ) with hmin | hmin <;> rw [hmin] <;> constructor <;>
          linarith [min_le_left t (c + δ)]
      · rw [approach_down hpos.le hside]
        rcases max_choice (c - δ) t with hmax | hmax <;> rw [hmax] <;> constructor <;>
          linarith [le_max_right (c - δ) t]

theorem Covers.zero {k : ℕ} : Covers δ 0 k :=
  ⟨fun _ hpos => absurd hpos (lt_irrefl 0), fun hδ => mul_nonneg (Nat.cast_nonneg k) hδ.le⟩

/-- The target is reached within `k` steps: on its side the distance is covered, and
across zero the fall and the rise are. -/
def InReach (up dn t c : α) (k : ℕ) : Prop :=
  if t * c < 0 then ∃ i j, i + j = k ∧ (0 < dn → |c| ≤ i * dn) ∧ Covers up |t| j
  else Covers (if |t| > |c| then up else dn) |t - c| k

variable {k : ℕ}

theorem inReach_neg : InReach up dn (-t) (-c) k ↔ InReach up dn t c k := by
  have hdist : |-t - -c| = |t - c| := by rw [neg_sub_neg, abs_sub_comm]
  rw [InReach, InReach, neg_mul_neg, abs_neg, abs_neg, hdist]

theorem inReach_same (ht : 0 ≤ t) (hc : 0 ≤ c) :
    InReach up dn t c k ↔ Covers (if t > c then up else dn) |t - c| k := by
  rw [InReach, if_neg (not_lt.mpr (mul_nonneg ht hc)), abs_of_nonneg ht, abs_of_nonneg hc]

theorem inReach_reverse (ht : 0 < t) (hc : c < 0) :
    InReach up dn t c k ↔ ∃ i j, i + j = k ∧ (0 < dn → -c ≤ i * dn) ∧ Covers up t j := by
  rw [InReach, if_pos (mul_neg_of_pos_of_neg ht hc), abs_of_pos ht, abs_of_neg hc]

theorem InReach.eq_target (h : InReach up dn t c 0) : c = t := by
  unfold InReach at h
  split_ifs at h with hrev
  · obtain ⟨i, j, hij, -, hrise⟩ := h
    obtain rfl : j = 0 := by omega
    have ht := abs_eq_zero.mp (hrise.eq_zero (abs_nonneg t))
    rw [ht, zero_mul] at hrev
    exact absurd hrev (lt_irrefl 0)
  all_goals
    have hdist := h.eq_zero (abs_nonneg _)
    exact (sub_eq_zero.mp (abs_eq_zero.mp hdist)).symm

/-! ### A step takes one off -/

theorem InReach.step_same (ht : 0 ≤ t) (hc : 0 ≤ c) (h : InReach up dn t c (k + 1)) :
    InReach up dn t (asymStep t c up dn) k := by
  rw [inReach_same ht hc] at h
  rw [asymStep_same (mul_nonneg ht hc), sideStep, abs_of_nonneg ht, abs_of_nonneg hc]
  by_cases hgrow : t > c
  · rw [if_pos hgrow] at h ⊢
    obtain ⟨hlow, hhigh, -⟩ := limit_up (δ := up) hgrow.le
    rw [inReach_same ht (hc.trans hlow)]
    -- unless it has arrived the value still grows
    rcases hhigh.eq_or_lt with harrived | hbelow
    · rw [harrived, sub_self, abs_zero]
      exact Covers.zero
    · rw [if_pos hbelow]
      exact h.limit
  · rw [if_neg hgrow] at h ⊢
    obtain ⟨hlow, -, -⟩ := limit_down (δ := dn) (not_lt.mp hgrow)
    rw [inReach_same ht (ht.trans hlow), if_neg (not_lt.mpr hlow)]
    exact h.limit

theorem InReach.step_reverse (ht : 0 < t) (hc : c < 0) (h : InReach up dn t c (k + 1)) :
    InReach up dn t (asymStep t c up dn) k := by
  obtain ⟨i, j, hij, hfall, hrise⟩ := (inReach_reverse ht hc).mp h
  rw [asymStep_reverse hc ht]
  split_ifs with hon
  · -- the fall goes on
    obtain ⟨hdn, hbelow⟩ := hon
    have hi : i ≠ 0 := by
      rintro rfl
      have hle := hfall hdn
      rw [Nat.cast_zero, zero_mul] at hle
      linarith
    obtain ⟨i, rfl⟩ := Nat.exists_eq_succ_of_ne_zero hi
    refine (inReach_reverse ht hbelow).mpr ⟨i, j, by omega, fun _ => ?_, hrise⟩
    have hle := hfall hdn
    rw [Nat.cast_succ, add_mul, one_mul] at hle
    linarith
  · -- the rise begins
    have hj : j ≠ 0 := by
      rintro rfl
      exact ht.ne' (hrise.eq_zero ht.le)
    obtain ⟨j, rfl⟩ := Nat.exists_eq_succ_of_ne_zero hj
    have hzero : InReach up dn t 0 (k + 1) := by
      rw [inReach_same ht.le (le_refl 0), if_pos ht, sub_zero, abs_of_pos ht]
      exact hrise.mono (le_refl t) (by omega)
    have hstep := hzero.step_same ht.le (le_refl 0)
    rwa [asymStep_same (by rw [mul_zero]), sideStep, abs_zero, abs_of_pos ht, if_pos ht] at hstep

/-- **Each step brings the target one step closer.** -/
theorem InReach.step (h : InReach up dn t c (k + 1)) :
    InReach up dn t (asymStep t c up dn) k := by
  have hmirror : InReach up dn (-t) (-c) (k + 1) := inReach_neg.mpr h
  rcases lt_trichotomy t 0 with ht | rfl | ht
  · rw [← inReach_neg, ← asymStep_neg]
    rcases lt_or_ge 0 c with hc | hc
    · exact hmirror.step_reverse (neg_pos.mpr ht) (neg_lt_zero.mpr hc)
    · exact hmirror.step_same (neg_nonneg.mpr ht.le) (neg_nonneg.mpr hc)
  · rcases le_total 0 c with hc | hc
    · exact h.step_same (le_refl 0) hc
    · rw [← inReach_neg, ← asymStep_neg]
      exact hmirror.step_same neg_zero.ge (neg_nonneg.mpr hc)
  · rcases lt_or_ge c 0 with hc | hc
    · exact h.step_reverse ht hc
    · exact h.step_same ht.le hc

theorem inReach_self : InReach up dn t t k := by
  rw [InReach, if_neg (not_lt.mpr (mul_self_nonneg t)), sub_self, abs_zero]
  exact Covers.zero

/-! ### Sequences of steps -/

/-- Each value is one step after the one before, or the target itself. -/
def Stepped (up dn t : α) (v : ℕ → α) (k : ℕ) : Prop :=
  v (k + 1) = asymStep t (v k) up dn ∨ v (k + 1) = t

variable {v : ℕ → α} {K : ℕ}

/-- A target within reach is arrived at. -/
theorem arrives (hsteps : ∀ k < K, Stepped up dn t v k) (hreach : InReach up dn t (v 0) K) :
    v K = t := by
  have hleft : ∀ k j, k + j = K → InReach up dn t (v k) j := by
    intro k
    induction k with
    | zero =>
      intro j hj
      obtain rfl : j = K := by omega
      exact hreach
    | succ k ih =>
      intro j hj
      rcases hsteps k (by omega) with hstep | hstep
      · rw [hstep]
        exact (ih (j + 1) (by omega)).step
      · rw [hstep]
        exact inReach_self
  exact (hleft K 0 rfl).eq_target

/-- Steps toward zero stay on their side of it. -/
theorem same_side_of_stepped (hsteps : ∀ k < K, Stepped up dn 0 v k) : 0 ≤ v 0 * v K := by
  have hside : (0 ≤ v 0 → 0 ≤ v K) ∧ (v 0 ≤ 0 → v K ≤ 0) := by
    induction K with
    | zero => exact ⟨id, id⟩
    | succ K ih =>
      obtain ⟨hpos, hneg⟩ := ih fun k hk => hsteps k (Nat.lt_succ_of_lt hk)
      rcases hsteps K (Nat.lt_succ_self K) with hstep | hstep
      · rw [hstep]
        exact ⟨fun h => (asymStep_between' up dn (hpos h)).1,
          fun h => (asymStep_between up dn (hneg h)).2⟩
      · rw [hstep]
        exact ⟨fun _ => le_refl 0, fun _ => le_refl 0⟩
  rcases le_total 0 (v 0) with h | h
  · exact mul_nonneg h (hside.1 h)
  · exact mul_nonneg_of_nonpos_of_nonpos h (hside.2 h)

/-- Steps toward a target above rise to it. -/
theorem monotone_of_stepped (hsteps : ∀ k, Stepped up dn t v k) (h : v 0 ≤ t) :
    Monotone v ∧ ∀ k, v k ≤ t := by
  have hbelow : ∀ k, v k ≤ t := by
    intro k
    induction k with
    | zero => exact h
    | succ k ih =>
      rcases hsteps k with hstep | hstep
      · rw [hstep]
        exact (asymStep_between up dn ih).2
      · exact hstep.le
  refine ⟨monotone_nat_of_le_succ fun k => ?_, hbelow⟩
  rcases hsteps k with hstep | hstep
  · rw [hstep]
    exact (asymStep_between up dn (hbelow k)).1
  · rw [hstep]
    exact hbelow k

theorem Stepped.neg (h : Stepped up dn t v K) : Stepped up dn (-t) (fun k => -v k) K := by
  rcases h with hstep | hstep
  · left
    rw [asymStep_neg, ← hstep]
  · right
    rw [← hstep]

/-- A monotone sequence changes its sign at most once. -/
theorem no_second_change (h : Monotone v ∨ Antitone v) {i j k : ℕ} (hij : i ≤ j) (hjk : j ≤ k)
    (hchange : v i * v j < 0) : 0 ≤ v j * v k := by
  rcases h with hmono | hanti
  · have hle := hmono hij
    have hle' := hmono hjk
    have hpos : 0 < v j := by
      by_contra hneg
      have hj := not_lt.mp hneg
      exact absurd hchange (not_lt.mpr (mul_nonneg_of_nonpos_of_nonpos (hle.trans hj) hj))
    exact mul_nonneg hpos.le (hpos.le.trans hle')
  · have hle := hanti hij
    have hle' := hanti hjk
    have hneg : v j < 0 := by
      by_contra hpos
      have hj := not_lt.mp hpos
      exact absurd hchange (not_lt.mpr (mul_nonneg (hj.trans hle) hj))
    exact mul_nonneg_of_nonpos_of_nonpos hneg.le (hle'.trans hneg.le)

/-! ### Counting the steps -/

section Count

variable [FloorSemiring α]

/-- The steps of `δ` for a distance `d`; none if the step is not positive. -/
def moveTicks (d δ : α) : ℕ := if 0 < δ then ⌈d / δ⌉₊ else 0

theorem le_moveTicks_mul (d : α) (hδ : 0 < δ) : d ≤ moveTicks d δ * δ := by
  rw [moveTicks, if_pos hδ, ← div_le_iff₀ hδ]
  exact Nat.le_ceil _

theorem covers_moveTicks {d d' : α} (h : d ≤ d') (hk : moveTicks d' δ + 1 ≤ k) :
    Covers δ d k := by
  constructor
  · intro _ _
    omega
  · intro hδ
    have hcast : (moveTicks d' δ : α) ≤ k := by exact_mod_cast (by omega : moveTicks d' δ ≤ k)
    exact (h.trans (le_moveTicks_mul d' hδ)).trans (mul_le_mul_of_nonneg_right hcast hδ.le)

theorem abs_sub_le_max_of_same (h : 0 ≤ t * c) : |t - c| ≤ max |t| |c| := by
  rcases mul_nonneg_iff.mp h with ⟨ht, hc⟩ | ⟨ht, hc⟩
  · rw [abs_of_nonneg ht, abs_of_nonneg hc, abs_le]
    constructor <;> linarith [le_max_left t c, le_max_right t c]
  · rw [abs_of_nonpos ht, abs_of_nonpos hc, abs_le]
    constructor <;> linarith [le_max_left (-t) (-c), le_max_right (-t) (-c)]

theorem inReach_zero_moveTicks {d : α} (hc : |c| ≤ d) (hk : moveTicks d dn + 1 ≤ k) :
    InReach up dn 0 c k := by
  rw [InReach, zero_mul, if_neg (lt_irrefl 0), abs_zero, if_neg (not_lt.mpr (abs_nonneg c)),
    zero_sub, abs_neg]
  exact covers_moveTicks hc hk

/-- A fall of all of `c`, a rise of all of `t`, and one step more. -/
theorem inReach_moveTicks (hk : moveTicks |c| dn + moveTicks |t| up + 1 ≤ k) :
    InReach up dn t c k := by
  unfold InReach
  split_ifs with hrev hgrow
  · refine ⟨moveTicks |c| dn, k - moveTicks |c| dn, by omega, le_moveTicks_mul _, ?_⟩
    exact covers_moveTicks (le_refl _) (by omega)
  all_goals have hdist := abs_sub_le_max_of_same (not_lt.mp hrev)
  · rw [max_eq_left hgrow.le] at hdist
    exact covers_moveTicks hdist (by omega)
  · rw [max_eq_right (not_lt.mp hgrow)] at hdist
    exact covers_moveTicks hdist (by omega)

/-- A sequence that goes from its first value to a target: straight, within the larger
magnitude of the two, with one change of sign at most, and in bounded time. -/
structure Settles (up dn t : α) (v : ℕ → α) : Prop where
  straight : (Monotone v ∧ ∀ k, v k ≤ t) ∨ (Antitone v ∧ ∀ k, t ≤ v k)
  bounded : ∀ k, |v k| ≤ max |v 0| |t|
  once : ∀ i j k, i ≤ j → j ≤ k → v i * v j < 0 → 0 ≤ v j * v k
  arrives : ∀ k, moveTicks |v 0| dn + moveTicks |t| up + 1 ≤ k → v k = t

/-- **Steps of the limiter settle at their target.** -/
theorem settles_of_stepped (hsteps : ∀ k, Stepped up dn t v k) : Settles up dn t v := by
  have hstraight : (Monotone v ∧ ∀ k, v k ≤ t) ∨ (Antitone v ∧ ∀ k, t ≤ v k) := by
    rcases le_total (v 0) t with h | h
    · exact Or.inl (monotone_of_stepped hsteps h)
    · obtain ⟨hmono, hbelow⟩ := monotone_of_stepped (fun k => (hsteps k).neg) (neg_le_neg h)
      right
      refine ⟨fun i j hij => neg_le_neg_iff.mp (hmono hij), fun k => ?_⟩
      exact neg_le_neg_iff.mp (hbelow k)
  refine ⟨hstraight, fun k => ?_, fun i j k => ?_, fun k hk => ?_⟩
  · rcases hstraight with ⟨hmono, hbelow⟩ | ⟨hanti, habove⟩
    · exact abs_le_max_abs_abs (hmono (Nat.zero_le k)) (hbelow k)
    · rw [max_comm]
      exact abs_le_max_abs_abs (habove k) (hanti (Nat.zero_le k))
  · exact no_second_change (hstraight.imp And.left And.left)
  · exact RateLimit.arrives (fun j _ => hsteps j) (inReach_moveTicks hk)

end Count

end RateLimit

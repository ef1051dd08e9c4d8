import KartFirmware.Input
import KartFirmware.RadialMap
import Mathlib.Algebra.Module.Prod
import Mathlib.Algebra.Order.Archimedean.Real.Basic
import Mathlib.Analysis.Real.Sqrt
import Mathlib.Data.Sign.Basic
import Mathlib.Tactic.NormNum
import Mathlib.Tactic.Linarith

/-!
# Circle to square

`squareMap` over the real numbers.  Beyond its threshold it moves a stick position along
its own ray, so that the longer coordinate becomes what the distance from the center was
(`squareMap_of_mem_disc`).  On the disc it is therefore one of the two radial maps between
these two sizes, and the other one is its inverse (`squareMap_squares_circle`).
-/

/-- Exact arithmetic over the real numbers. -/
noncomputable instance CFloat.real : CFloat ℝ where
  add a b := a + b
  sub a b := a - b
  mul a b := a * b
  div a b := a / b
  neg a := -a
  lt a b := a < b
  le a b := a ≤ b
  decLt a b := inferInstanceAs (Decidable (a < b))
  decLe a b := inferInstanceAs (Decidable (a ≤ b))
  eq a b := decide (a = b)
  fabs a := |a|
  ofInt n := n
  ofScientific m s e := OfScientific.ofScientific m s e
  toUInt32 a := ⌊a⌋.toNat

namespace KartFirmware

open RadialMap

noncomputable instance realSqrt : CSqrt ℝ := ⟨Real.sqrt⟩

/-! ### Two sizes -/

/-- The longer of the two coordinates. -/
noncomputable def box (p : ℝ × ℝ) : ℝ := max |p.1| |p.2|

/-- The distance from the center. -/
noncomputable def radius (p : ℝ × ℝ) : ℝ := Real.sqrt (p.1 * p.1 + p.2 * p.2)

/-- The unit disc, which bounds the stick. -/
def disc : Set (ℝ × ℝ) := {p | p.1 * p.1 + p.2 * p.2 ≤ 1}

variable {p q : ℝ × ℝ}

theorem mem_disc : p ∈ disc ↔ radius p ≤ 1 := by
  rw [radius, Real.sqrt_le_iff, one_pow, and_iff_right zero_le_one]
  rfl

theorem homogeneous_box : Homogeneous (K := ℝ) box := by
  intro k p hk
  rw [box, box, Prod.smul_fst, Prod.smul_snd, smul_eq_mul, smul_eq_mul, abs_mul, abs_mul,
    abs_of_nonneg hk, mul_max_of_nonneg _ _ hk]

theorem homogeneous_radius : Homogeneous (K := ℝ) radius := by
  intro k p hk
  have hsq : (k • p).1 * (k • p).1 + (k • p).2 * (k • p).2 =
      k * k * (p.1 * p.1 + p.2 * p.2) := by
    rw [Prod.smul_fst, Prod.smul_snd, smul_eq_mul, smul_eq_mul]
    ring
  rw [radius, hsq, Real.sqrt_mul (mul_self_nonneg k), Real.sqrt_mul_self hk, radius]

theorem box_le_radius (p : ℝ × ℝ) : box p ≤ radius p := by
  refine max_le (Real.abs_le_sqrt ?_) (Real.abs_le_sqrt ?_)
  · nlinarith [mul_self_nonneg p.2]
  · nlinarith [mul_self_nonneg p.1]

theorem radius_mul_self_le (p : ℝ × ℝ) : radius p * radius p ≤ 2 * (box p * box p) := by
  have hx : p.1 * p.1 ≤ box p * box p := by
    rw [← abs_mul_abs_self]
    exact mul_self_le_mul_self (abs_nonneg _) (le_max_left _ _)
  have hy : p.2 * p.2 ≤ box p * box p := by
    rw [← abs_mul_abs_self]
    exact mul_self_le_mul_self (abs_nonneg _) (le_max_right _ _)
  rw [radius, Real.mul_self_sqrt (add_nonneg (mul_self_nonneg _) (mul_self_nonneg _))]
  linarith

/-! ### The map -/

theorem clampf_unit (v : ℝ) : ctl.clampf v (-1) 1 = max (-1) (min v 1) := by
  have hclamp : ctl.clampf v (-1) 1 = if v < -1 then -1 else if 1 < v then 1 else v := rfl
  rw [hclamp]
  split_ifs with hlow hhigh
  · rw [min_eq_left (by linarith), max_eq_left hlow.le]
  · rw [min_eq_right hhigh.le, max_eq_right (by norm_num)]
  · rw [min_eq_left (not_lt.mp hhigh), max_eq_right (not_lt.mp hlow)]

theorem abs_clampf_unit (v : ℝ) : |ctl.clampf v (-1) 1| = min |v| 1 := by
  rw [clampf_unit]
  rcases le_total 0 v with hv | hv
  · rw [abs_of_nonneg hv, max_eq_right (by linarith [le_min hv zero_le_one]),
      abs_of_nonneg (le_min hv zero_le_one)]
  · rw [abs_of_nonpos hv, min_eq_left (by linarith), abs_of_nonpos (max_le (by norm_num) hv),
      ← min_neg_neg, neg_neg, min_comm]

theorem sign_clampf_unit (v : ℝ) : SignType.sign (ctl.clampf v (-1) 1) = SignType.sign v := by
  rw [clampf_unit]
  rcases lt_trichotomy v 0 with hv | rfl | hv
  · rw [sign_neg hv, sign_neg (max_lt (by norm_num) (min_lt_of_left_lt hv))]
  · simp
  · rw [sign_pos hv, sign_pos (lt_max_of_lt_right (lt_min hv zero_lt_one))]

theorem clampf_unit_of_mem {v : ℝ} (hv : |v| ≤ 1) : ctl.clampf v (-1) 1 = v := by
  rw [abs_le] at hv
  rw [clampf_unit, min_eq_left hv.2, max_eq_right hv.1]

theorem squareMap_real (x y : ℝ) :
    ctl.squareMap x y =
      if 1 / 1000 < box (x, y) then
        (ctl.clampf (x * (radius (x, y) / box (x, y))) (-1) 1,
          ctl.clampf (y * (radius (x, y) / box (x, y))) (-1) 1)
      else (x, y) := by
  have hone : (CFloat.ofInt 1 : ℝ) = 1 := Int.cast_one
  have hbox : (if |y| < |x| then |x| else |y|) = box (x, y) := by
    rw [box, max_comm, max_def_lt]
  have hlit : (1e-3 : ℝ) = 1 / 1000 := by norm_num
  change (if 1e-3 < (if |y| < |x| then |x| else |y|) then
      (ctl.clampf (x * (radius (x, y) / if |y| < |x| then |x| else |y|)) (-CFloat.ofInt 1)
          (CFloat.ofInt 1),
        ctl.clampf (y * (radius (x, y) / if |y| < |x| then |x| else |y|)) (-CFloat.ofInt 1)
          (CFloat.ofInt 1))
    else (x, y)) = _
  rw [hone, hbox, hlit]

/-- In the disc nothing is clamped. -/
theorem squareMap_of_mem_disc (h : p ∈ disc) :
    ctl.squareMap p.1 p.2 = if 1 / 1000 < box p then resize radius box p else p := by
  rw [squareMap_real]
  split_ifs with hbox
  · have hpos : 0 < box p := lt_trans (by norm_num) hbox
    have hsize : box (resize radius box p) ≤ 1 := by
      rw [size_resize homogeneous_box (hpos.le.trans (box_le_radius p)) hpos]
      exact mem_disc.mp h
    have hfst : p.1 * (radius p / box p) = (resize radius box p).1 := mul_comm _ _
    have hsnd : p.2 * (radius p / box p) = (resize radius box p).2 := mul_comm _ _
    rw [hfst, hsnd, clampf_unit_of_mem ((le_max_left _ _).trans hsize),
      clampf_unit_of_mem ((le_max_right _ _).trans hsize)]
  · rfl

/-- Beyond the threshold the map is the stretch of both coordinates, cut at the square. -/
theorem squareMap_of_box (h : 1 / 1000 < box p) :
    ∃ k > 0, ctl.squareMap p.1 p.2 = (ctl.clampf (p.1 * k) (-1) 1, ctl.clampf (p.2 * k) (-1) 1) ∧
      box p * k = radius p := by
  have hpos : 0 < box p := lt_trans (by norm_num) h
  refine ⟨radius p / box p, div_pos (hpos.trans_le (box_le_radius p)) hpos, ?_, ?_⟩
  · rw [squareMap_real, if_pos h]
  · exact mul_div_cancel₀ _ hpos.ne'

theorem box_squareMap (h : 1 / 1000 < box p) :
    box (ctl.squareMap p.1 p.2) = min 1 (radius p) := by
  obtain ⟨k, hk, hmap, hsize⟩ := squareMap_of_box h
  rw [hmap, ← hsize, box, abs_clampf_unit, abs_clampf_unit, abs_mul, abs_mul, abs_of_pos hk,
    ← min_max_distrib_right, ← max_mul_of_nonneg _ _ hk.le, min_comm]
  rfl

/-- What lies beyond the threshold stays beyond it. -/
theorem lt_box_squareMap (h : 1 / 1000 < box p) : 1 / 1000 < box (ctl.squareMap p.1 p.2) := by
  rw [box_squareMap h]
  exact lt_min (by norm_num) (h.trans_le (box_le_radius p))

theorem squareMap_injOn : Set.InjOn (fun p => ctl.squareMap p.1 p.2) disc := by
  intro p hp q hq hsame
  have hsame' : ctl.squareMap p.1 p.2 = ctl.squareMap q.1 q.2 := hsame
  by_cases hbp : 1 / 1000 < box p <;> by_cases hbq : 1 / 1000 < box q
  · have hpos : ∀ {r : ℝ × ℝ}, 1 / 1000 < box r → 0 < radius r ∧ 0 < box r := fun {r} hr => by
      have hbox : 0 < box r := lt_trans (by norm_num) hr
      exact ⟨hbox.trans_le (box_le_radius r), hbox⟩
    rw [squareMap_of_mem_disc hp, squareMap_of_mem_disc hq, if_pos hbp, if_pos hbq] at hsame'
    exact resize_injOn homogeneous_radius homogeneous_box (hpos hbp) (hpos hbq) hsame'
  · -- the image of `p` lies beyond the threshold, that of `q` does not
    have hfar := lt_box_squareMap hbp
    rw [hsame', squareMap_of_mem_disc hq, if_neg hbq] at hfar
    exact absurd hfar hbq
  · have hfar := lt_box_squareMap hbq
    rw [← hsame', squareMap_of_mem_disc hp, if_neg hbp] at hfar
    exact absurd hfar hbp
  · rwa [squareMap_of_mem_disc hp, squareMap_of_mem_disc hq, if_neg hbp, if_neg hbq] at hsame'

/-- The way back of a point of the square that is not too close to the center. -/
theorem exists_squareMap_eq (hsquare : box q ≤ 1) (hfar : 0.0015 ≤ box q) :
    ∃ p ∈ disc, ctl.squareMap p.1 p.2 = q := by
  have hbox : 0 < box q := lt_of_lt_of_le (by norm_num) hfar
  have hradius : 0 < radius q := hbox.trans_le (box_le_radius q)
  have hmem : resize box radius q ∈ disc := by
    rw [mem_disc, size_resize homogeneous_radius hbox.le hradius]
    exact hsquare
  have hbeyond : 1 / 1000 < box (resize box radius q) := by
    rw [resize, homogeneous_box _ q (div_nonneg hbox.le hradius.le), div_mul_eq_mul_div,
      lt_div_iff₀ hradius]
    -- the radius is at most the box times the square root of two
    refine lt_of_mul_self_lt_mul_self₀ (by positivity) ?_
    have hlong := radius_mul_self_le q
    have hsq : 0.0015 * 0.0015 ≤ box q * box q := mul_self_le_mul_self (by norm_num) hfar
    nlinarith [mul_pos hbox hbox]
  refine ⟨resize box radius q, hmem, ?_⟩
  rw [squareMap_of_mem_disc hmem, if_pos hbeyond]
  exact resize_resize homogeneous_box homogeneous_radius hbox hradius

/-- What the compensation of the stick's circle should do. -/
structure SquaresCircle (f : ℝ × ℝ → ℝ × ℝ) : Prop where
  sign : ∀ p, box p ≤ 1 → 1e-3 < box p →
    SignType.sign (f p).1 = SignType.sign p.1 ∧ SignType.sign (f p).2 = SignType.sign p.2
  order : ∀ p, box p ≤ 1 → 1e-3 < box p →
    (|p.1| ≤ |p.2| → |(f p).1| ≤ |(f p).2|) ∧ (|p.2| ≤ |p.1| → |(f p).2| ≤ |(f p).1|)
  size : ∀ p, box p ≤ 1 → 1e-3 < box p → box (f p) ≤ 1 ∧ box (f p) = min 1 (radius p)
  unclamped : ∀ p ∈ disc, 1e-3 < box p → f p = (radius p / box p) • p
  direction : ∀ p ∈ disc, (f p).1 * p.2 = (f p).2 * p.1
  injective : Set.InjOn f disc
  reaches : ∀ q, box q ≤ 1 → 0.0015 ≤ box q → ∃ p ∈ disc, f p = q

/-- **`squareMap` squares the circle.** -/
theorem squareMap_squares_circle : SquaresCircle fun p => ctl.squareMap p.1 p.2 := by
  have hlit : (1e-3 : ℝ) = 1 / 1000 := by norm_num
  constructor
  · intro p _ hbox
    rw [hlit] at hbox
    obtain ⟨k, hk, hmap, -⟩ := squareMap_of_box hbox
    rw [hmap, sign_clampf_unit, sign_clampf_unit, sign_mul, sign_mul, sign_pos hk, mul_one, mul_one]
    exact ⟨rfl, rfl⟩
  · intro p _ hbox
    rw [hlit] at hbox
    obtain ⟨k, hk, hmap, -⟩ := squareMap_of_box hbox
    rw [hmap, abs_clampf_unit, abs_clampf_unit, abs_mul, abs_mul]
    exact ⟨fun h => min_le_min_right 1 (mul_le_mul_of_nonneg_right h (abs_nonneg k)),
      fun h => min_le_min_right 1 (mul_le_mul_of_nonneg_right h (abs_nonneg k))⟩
  · intro p _ hbox
    rw [hlit] at hbox
    have hsize := box_squareMap hbox
    exact ⟨hsize.trans_le (min_le_left _ _), hsize⟩
  · intro p hp hbox
    rw [hlit] at hbox
    rw [squareMap_of_mem_disc hp, if_pos hbox]
    rfl
  · intro p hp
    rw [squareMap_of_mem_disc hp]
    split_ifs
    · have hfst : (resize radius box p).1 = radius p / box p * p.1 := rfl
      have hsnd : (resize radius box p).2 = radius p / box p * p.2 := rfl
      rw [hfst, hsnd]
      ring
    · exact mul_comm _ _
  · exact squareMap_injOn
  · exact fun q hsquare hfar => exists_squareMap_eq hsquare hfar

end KartFirmware

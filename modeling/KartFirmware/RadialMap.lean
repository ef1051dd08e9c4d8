import Mathlib.Algebra.Order.Field.Basic
import Mathlib.Algebra.Module.Defs
import Mathlib.Data.Set.Function

/-!
# Radial maps

A map that moves every point along its own ray, so that what one size says of the point
before another one says of the point after it.  Two sizes that scale with the point give
two such maps, and away from zero they are inverse to each other (`resize_resize`).
-/

namespace RadialMap

variable {K V : Type*} [Field K] [LinearOrder K] [IsStrictOrderedRing K] [AddCommGroup V]
  [Module K V]

/-- The size scales with the point. -/
def Homogeneous (a : V → K) : Prop := ∀ (k : K) (p : V), 0 ≤ k → a (k • p) = k * a p

/-- The point of the ray through `p` that `b` measures as `a` measures `p`. -/
def resize (a b : V → K) (p : V) : V := (a p / b p) • p

variable {a b : V → K} {p : V}

theorem size_resize (hb : Homogeneous b) (ha : 0 ≤ a p) (hp : 0 < b p) :
    b (resize a b p) = a p := by
  rw [resize, hb _ p (div_nonneg ha hp.le), div_mul_cancel₀ _ hp.ne']

/-- There and back again. -/
theorem resize_resize (ha : Homogeneous a) (hb : Homogeneous b) (hap : 0 < a p) (hbp : 0 < b p) :
    resize b a (resize a b p) = p := by
  have hk : 0 < a p / b p := div_pos hap hbp
  have hback : b (resize a b p) / a (resize a b p) = b p / a p := by
    rw [resize, ha _ p hk.le, hb _ p hk.le, mul_div_mul_left _ _ hk.ne']
  rw [resize, hback, resize, smul_smul, div_mul_div_cancel₀ hap.ne', div_self hbp.ne', one_smul]

theorem resize_injOn (ha : Homogeneous a) (hb : Homogeneous b) :
    Set.InjOn (resize a b) {p | 0 < a p ∧ 0 < b p} := by
  rintro p ⟨hap, hbp⟩ q ⟨haq, hbq⟩ hsame
  rw [← resize_resize ha hb hap hbp, hsame, resize_resize ha hb haq hbq]

end RadialMap

import Mathlib.Algebra.Order.Field.Basic
import Mathlib.Algebra.Order.Floor.Ring
import Mathlib.Data.Rat.Floor
import Mathlib.Tactic.Linarith
import Mathlib.Tactic.NormNum
import Mathlib.Tactic.Positivity
import Mathlib.Tactic.Ring

/-!
# The order of binary32

Comparison of `Float32`, through the logical model that Lean gives it.  Away from
NaN the order is total (`le_of_not_lt`); a NaN is below and above nothing
(`not_isNaN_of_le`, `not_lt_of_isNaN`).  Finite floats have a rational value, and the order is
the order of the values (`value_le`): the patterns that `unpack` yields are in
canonical form, so that comparing exponents first and mantissas next compares
values.  Rounding to an integer (`roundHalfAway`) then stays between integer
bounds (`roundHalfAway_mem`).
-/

namespace Binary32

open Float.Model Float.Model.UnpackedFloat

/-! ### Comparison of unpacked floats -/

theorem sign_compare_swap (s t : Sign) : compare s t = (compare t s).swap := by
  cases s <;> cases t <;> rfl

theorem lex_swap (e₁ e₂ : Int) (m₁ m₂ : Nat) :
    (compare e₁ e₂).then (compare m₁ m₂) = ((compare e₂ e₁).then (compare m₂ m₁)).swap := by
  have he : compare e₁ e₂ = (compare e₂ e₁).swap := Std.OrientedCmp.eq_swap
  have hm : compare m₁ m₂ = (compare m₂ m₁).swap := Std.OrientedCmp.eq_swap
  rw [Ordering.swap_then, he, hm]

theorem compare_swap (a b : UnpackedFloat) : a.compare b = (b.compare a).map Ordering.swap := by
  cases a with
  | notANumber => cases b <;> rfl
  | infinity s =>
    cases b with
    | infinity t => exact congrArg some (sign_compare_swap s t)
    | notANumber => rfl
    | zero t => cases s <;> rfl
    | finite t m e h => cases s <;> rfl
  | zero s =>
    cases b with
    | infinity t => cases t <;> rfl
    | notANumber => rfl
    | zero t => rfl
    | finite t m e h => cases t <;> rfl
  | finite s m e h =>
    cases b with
    | infinity t => cases t <;> rfl
    | notANumber => rfl
    | zero t => cases s <;> rfl
    | finite t m' e' h' =>
      cases s <;> cases t
      · exact congrArg some (congrArg Ordering.swap (lex_swap e e' m m'))
      · rfl
      · rfl
      · exact congrArg some (lex_swap e e' m m')

/-- Only a NaN is incomparable. -/
theorem compare_eq_none_iff {a b : UnpackedFloat} :
    a.compare b = none ↔ a.isNaN = true ∨ b.isNaN = true := by
  cases a with
  | notANumber => exact iff_of_true rfl (Or.inl rfl)
  | infinity s =>
    cases b with
    | notANumber => cases s <;> exact iff_of_true rfl (Or.inr rfl)
    | infinity t => cases s <;> cases t <;> exact iff_of_false nofun nofun
    | zero t => cases s <;> exact iff_of_false nofun nofun
    | finite t m e h => cases s <;> exact iff_of_false nofun nofun
  | zero s =>
    cases b with
    | notANumber => exact iff_of_true rfl (Or.inr rfl)
    | infinity t => cases t <;> exact iff_of_false nofun nofun
    | zero t => exact iff_of_false nofun nofun
    | finite t m e h => cases t <;> exact iff_of_false nofun nofun
  | finite s m e h =>
    cases b with
    | notANumber => exact iff_of_true rfl (Or.inr rfl)
    | infinity t => cases t <;> exact iff_of_false nofun nofun
    | zero t => cases s <;> exact iff_of_false nofun nofun
    | finite t m' e' h' => cases s <;> cases t <;> exact iff_of_false nofun nofun

/-! ### The order of `Float32` -/

variable {a b c : Float32}

def cmp (a b : Float32) : Option Ordering := a.toModel.unpack.compare b.toModel.unpack

theorem lt_iff : a < b ↔ cmp a b = some .lt := by
  change decide (UnpackedFloat.lt _ _ = true) = true ↔ _
  rw [decide_eq_true_iff]
  exact beq_iff_eq

theorem le_iff : a ≤ b ↔ (cmp a b).any (·.isLE) = true := by
  change decide (UnpackedFloat.le _ _ = true) = true ↔ _
  rw [decide_eq_true_iff]
  rfl

theorem cmp_swap (a b : Float32) : cmp a b = (cmp b a).map Ordering.swap := compare_swap _ _

theorem le_of_lt (h : a < b) : a ≤ b := by
  rw [le_iff, lt_iff.mp h]
  rfl

/-- Away from NaN the order is total. -/
theorem le_of_not_lt (ha : ¬ a.isNaN) (hb : ¬ b.isNaN) (h : ¬ a < b) : b ≤ a := by
  have hsome : cmp a b ≠ none := by
    intro hnone
    rcases compare_eq_none_iff.mp hnone with hnan | hnan
    · exact ha hnan
    · exact hb hnan
  obtain ⟨o, ho⟩ := Option.ne_none_iff_exists'.mp hsome
  rw [le_iff, cmp_swap, ho]
  rw [lt_iff, ho] at h
  cases o with
  | lt => exact absurd rfl h
  | eq => rfl
  | gt => rfl

theorem not_isNaN_of_le (h : a ≤ b) : ¬ a.isNaN ∧ ¬ b.isNaN := by
  have hnone : cmp a b ≠ none := by
    intro hnone
    rw [le_iff, hnone] at h
    exact Bool.noConfusion h
  exact ⟨fun ha => hnone (compare_eq_none_iff.mpr (Or.inl ha)),
    fun hb => hnone (compare_eq_none_iff.mpr (Or.inr hb))⟩

theorem not_lt_of_isNaN (h : a.isNaN ∨ b.isNaN) : ¬ a < b := by
  have hnone : cmp a b = none := compare_eq_none_iff.mpr h
  rw [lt_iff, hnone]
  exact fun hlt => nomatch hlt

/-! ### Values -/

/-- What `unpack` guarantees of a finite float: 24 bits of mantissa, all of them
used unless the exponent is the smallest one. -/
def Canonical : UnpackedFloat → Prop
  | .finite _ m e _ => m < 2 ^ 24 ∧ -149 ≤ e ∧ (2 ^ 23 ≤ m ∨ e = -149)
  | _ => True

/-- The cases of `unpack`, with the fields that decide them. -/
theorem unpack_cases {spec : Format} {w : BitVec spec.numBits} {P : UnpackedFloat → Prop}
    (infinity : ∀ s, P (.infinity s))
    (notANumber : unpackExponent w = -1#_ → unpackMantissa w ≠ 0#_ → P .notANumber)
    (zero : ∀ s, P (.zero s))
    (subnormal : unpackExponent w = 0#_ → ∀ s h, P (.finite s (unpackMantissa w).toNat
      ((unpackExponent w).toNat - (spec.exponentBias + spec.mantissaBitsWithoutImplicit) + 1) h))
    (normal : unpackExponent w ≠ 0#_ → ∀ s h, P (.finite s (1#1 ++ unpackMantissa w).toNat
      ((unpackExponent w).toNat - (spec.exponentBias + spec.mantissaBitsWithoutImplicit)) h)) :
    P (UnpackedFloat.unpack spec w) := by
  refine iteInduction (fun hexp => iteInduction (fun _ => infinity _) (notANumber hexp))
    (fun _ => iteInduction (fun hsub => ?_) (fun hnormal => normal hnormal _ _))
  by_cases hzero : unpackMantissa w = 0#_
  · rw [dif_pos hzero]
    exact zero _
  · rw [dif_neg hzero]
    exact subnormal hsub _ _

theorem canonical_unpack (f : Float32.Model) : Canonical f.unpack := by
  have hm : (@unpackMantissa Format.binary32 f.toBits.toBitVec).toNat < 2 ^ 23 := BitVec.isLt _
  have hbias : (Format.binary32.exponentBias : Int) + 23 = 150 := by decide
  refine unpack_cases (fun _ => trivial) (fun _ _ => trivial) (fun _ => trivial)
    (fun hsub _ _ => ?_) (fun hnormal _ _ => ?_)
  · -- subnormal: the exponent is the smallest one
    have hexp : (@unpackExponent Format.binary32 f.toBits.toBitVec).toNat = 0 := by
      rw [hsub]
      rfl
    refine ⟨hm.trans (by norm_num), ?_, Or.inr ?_⟩
    · change -149 ≤ ((@unpackExponent Format.binary32 f.toBits.toBitVec).toNat : Int) -
        (Format.binary32.exponentBias + 23) + 1
      omega
    · change ((@unpackExponent Format.binary32 f.toBits.toBitVec).toNat : Int) -
        (Format.binary32.exponentBias + 23) + 1 = -149
      omega
  · -- normal: the implicit bit is set
    have hpos : 0 < (@unpackExponent Format.binary32 f.toBits.toBitVec).toNat := by
      rcases Nat.eq_zero_or_pos (@unpackExponent Format.binary32
        f.toBits.toBitVec).toNat with h0 | hpos
      · exact absurd (BitVec.eq_of_toNat_eq h0) hnormal
      · exact hpos
    have hval : (1#1 ++ @unpackMantissa Format.binary32 f.toBits.toBitVec).toNat =
        2 ^ 23 + (@unpackMantissa Format.binary32 f.toBits.toBitVec).toNat := by
      rw [BitVec.toNat_append]
      exact (Nat.two_pow_add_eq_or_of_lt hm 1).symm
    refine ⟨?_, ?_, Or.inl ?_⟩
    · rw [hval]
      omega
    · change -149 ≤ ((@unpackExponent Format.binary32 f.toBits.toBitVec).toNat : Int) -
        (Format.binary32.exponentBias + 23)
      omega
    · rw [hval]
      omega

/-- The value in units of the smallest subnormal, `2^-149`. -/
def scaled : UnpackedFloat → Int
  | .finite s m e _ => s.apply (m * 2 ^ (e + 149).toNat)
  | _ => 0

/-- The value of a finite float; 0 for infinities and NaN. -/
def value (a : Float32) : ℚ := scaled a.toModel.unpack / 2 ^ 149

theorem mantissa_le_of_lex {m m' : Nat} {e e' : Int} (hm : m < 2 ^ 24) (he : -149 ≤ e)
    (hm' : 2 ^ 23 ≤ m' ∨ e' = -149)
    (h : ((compare e e').then (compare m m')).isLE = true) :
    m * 2 ^ (e + 149).toNat ≤ m' * 2 ^ (e' + 149).toNat := by
  rcases lt_trichotomy e e' with hlt | heq | hgt
  · have hbig : 2 ^ 23 ≤ m' := by
      rcases hm' with hbig | hmin
      · exact hbig
      · omega
    obtain ⟨d, hd⟩ : ∃ d, (e' + 149).toNat = (e + 149).toNat + 1 + d :=
      ⟨(e' + 149).toNat - (e + 149).toNat - 1, by omega⟩
    calc m * 2 ^ (e + 149).toNat
        ≤ 2 ^ 24 * 2 ^ (e + 149).toNat := Nat.mul_le_mul_right _ hm.le
      _ = 2 ^ 23 * 2 ^ ((e + 149).toNat + 1) := by ring
      _ ≤ m' * 2 ^ ((e + 149).toNat + 1) := Nat.mul_le_mul_right _ hbig
      _ ≤ m' * 2 ^ (e' + 149).toNat := by
          rw [hd]
          exact Nat.mul_le_mul_left _ (Nat.pow_le_pow_right (by norm_num) (Nat.le_add_right _ _))
  · subst heq
    have hle : (compare m m').isLE = true := by simpa using h
    exact Nat.mul_le_mul_right _ (Nat.isLE_compare.mp hle)
  · have hcmp : compare e e' = .gt := compare_gt_iff_gt.mpr hgt
    rw [hcmp] at h
    exact Bool.noConfusion h

/-- Canonical finite floats are compared as their values. -/
theorem scaled_le_of_compare {x y : UnpackedFloat} (hx : Canonical x) (hy : Canonical y)
    (hfx : x.isFinite = true) (hfy : y.isFinite = true)
    (h : (x.compare y).any (·.isLE) = true) : scaled x ≤ scaled y := by
  have hnonneg : ∀ (m : Nat) (e : Int), (0 : Int) ≤ (m : Int) * 2 ^ (e + 149).toNat :=
    fun m e => by positivity
  cases x with
  | infinity s => exact Bool.noConfusion hfx
  | notANumber => exact Bool.noConfusion hfx
  | zero s =>
    cases y with
    | infinity t => exact Bool.noConfusion hfy
    | notANumber => exact Bool.noConfusion hfy
    | zero t => exact le_refl _
    | finite t m e hm =>
      cases t with
      | negative => exact Bool.noConfusion h
      | positive => exact hnonneg m e
  | finite s m e hm =>
    cases y with
    | infinity t => exact Bool.noConfusion hfy
    | notANumber => exact Bool.noConfusion hfy
    | zero t =>
      cases s with
      | negative => exact Int.neg_nonpos_of_nonneg (hnonneg m e)
      | positive => exact Bool.noConfusion h
    | finite t m' e' hm' =>
      cases s <;> cases t
      · have hlex : ((compare e' e).then (compare m' m)).isLE = true := by
          rw [lex_swap]
          exact h
        have hle := mantissa_le_of_lex hy.1 hy.2.1 hx.2.2 hlex
        exact Int.neg_le_neg (by exact_mod_cast hle)
      · exact (Int.neg_nonpos_of_nonneg (hnonneg m e)).trans (hnonneg m' e')
      · exact Bool.noConfusion h
      · have hle := mantissa_le_of_lex hx.1 hx.2.1 hy.2.2 h
        change (m : Int) * 2 ^ (e + 149).toNat ≤ (m' : Int) * 2 ^ (e' + 149).toNat
        exact_mod_cast hle

theorem value_le (ha : a.isFinite) (hb : b.isFinite) (h : a ≤ b) : value a ≤ value b := by
  have hle := scaled_le_of_compare (canonical_unpack _) (canonical_unpack _) ha hb (le_iff.mp h)
  exact div_le_div_of_nonneg_right (by exact_mod_cast hle) (by positivity)

theorem not_isNaN_of_isFinite (h : a.isFinite) : ¬ a.isNaN := by
  change a.toModel.unpack.isFinite = true at h
  change ¬ a.toModel.unpack.isNaN = true
  cases hcase : a.toModel.unpack with
  | notANumber =>
    rw [hcase] at h
    exact Bool.noConfusion h
  | infinity s => exact Bool.noConfusion
  | zero s => exact Bool.noConfusion
  | finite s m e hm => exact Bool.noConfusion

/-- Between finite floats there are only finite floats. -/
theorem isFinite_of_between (ha : a.isFinite) (hc : c.isFinite) (hab : a ≤ b) (hbc : b ≤ c) :
    b.isFinite := by
  rw [le_iff, cmp] at hab hbc
  change b.toModel.unpack.isFinite = true
  change a.toModel.unpack.isFinite = true at ha
  change c.toModel.unpack.isFinite = true at hc
  generalize a.toModel.unpack = x at *
  generalize b.toModel.unpack = y at *
  generalize c.toModel.unpack = z at *
  cases y with
  | zero s => rfl
  | finite s m e hm => rfl
  | notANumber => cases x <;> exact Bool.noConfusion hab
  | infinity s =>
    cases s with
    | negative => cases x <;> first | exact Bool.noConfusion ha | exact Bool.noConfusion hab
    | positive => cases z <;> first | exact Bool.noConfusion hc | exact Bool.noConfusion hbc

/-! ### Rounding to an integer -/

/-- To the nearest integer, halves away from zero. -/
def roundHalfAway (q : ℚ) : Int := if 0 ≤ q then ⌊q + 1 / 2⌋ else -⌊-q + 1 / 2⌋

theorem roundHalfAway_mem {q : ℚ} {lo hi : Int} (hlo : (lo : ℚ) ≤ q) (hhi : q ≤ hi) :
    lo ≤ roundHalfAway q ∧ roundHalfAway q ≤ hi := by
  unfold roundHalfAway
  split_ifs with hq
  · constructor
    · exact Int.le_floor.mpr (by linarith)
    · have hlt : ⌊q + 1 / 2⌋ < hi + 1 := Int.floor_lt.mpr (by push_cast; linarith)
      omega
  · constructor
    · have hlt : ⌊-q + 1 / 2⌋ < -lo + 1 := Int.floor_lt.mpr (by push_cast; linarith)
      omega
    · have hle : -hi ≤ ⌊-q + 1 / 2⌋ := Int.le_floor.mpr (by push_cast; linarith)
      omega

/-! ### Packing -/

theorem isNaN_unpack {spec : Format} {w : BitVec spec.numBits} :
    (UnpackedFloat.unpack spec w).isNaN = true →
      unpackExponent w = -1#_ ∧ unpackMantissa w ≠ 0#_ :=
  unpack_cases (P := fun x => x.isNaN = true → unpackExponent w = -1#_ ∧ unpackMantissa w ≠ 0#_)
    (fun _ h => Bool.noConfusion h) (fun hexp hm _ => ⟨hexp, hm⟩)
    (fun _ h => Bool.noConfusion h) (fun _ _ _ h => Bool.noConfusion h)
    (fun _ _ _ h => Bool.noConfusion h)

/-- Packing keeps a float that is not NaN from becoming one. -/
theorem isNaN_ofModel_pack {x : UnpackedFloat} (h : x.isNaN = false) :
    ¬ (Float32.ofModel (.pack x)).isNaN := by
  intro hnan
  have hw : (UnpackedFloat.unpack Format.binary32 (UnpackedFloat.pack Format.binary32 x)).isNaN =
      true := hnan
  obtain ⟨hexp, hm⟩ := isNaN_unpack hw
  cases x with
  | notANumber => exact Bool.noConfusion h
  | infinity s => exact hm unpackMantissa_packComponents
  | zero s => exact hm unpackMantissa_packComponents
  | finite s m e hpos =>
    unfold UnpackedFloat.pack at hexp hm
    dsimp only at hexp hm
    split_ifs at hexp hm with hbig hnormal
    · exact hm (by simp [packedInfinity])
    · -- the biased exponent of a normal float is below the reserved one
      rw [unpackExponent_packComponents] at hexp
      have hval : (e + Format.binary32.exponentBias +
          Format.binary32.mantissaBitsWithoutImplicit).toNat % 2 ^ 8 = 255 :=
        (BitVec.toNat_ofNat _ _).symm.trans (congrArg BitVec.toNat hexp)
      have hlt : ¬ 2 ^ 8 ≤ (e + Format.binary32.exponentBias +
          Format.binary32.mantissaBitsWithoutImplicit).toNat + 1 := hbig
      omega
    · rw [unpackExponent_packComponents] at hexp
      exact absurd hexp (by decide)

theorem isNaN_roundWithAccuracy (spec : Format) (s : Sign) (m : Nat) (e : Int) (acc : Accuracy) :
    (UnpackedFloat.roundWithAccuracy spec s m e acc).isNaN = false := by
  unfold UnpackedFloat.roundWithAccuracy
  dsimp only
  rw [apply_dite UnpackedFloat.isNaN]
  exact dite_eq_iff'.mpr ⟨fun _ => rfl, fun _ => rfl⟩

theorem isNaN_round (spec : Format) (s : Sign) (m : Nat) (e : Int) :
    (UnpackedFloat.round spec s m e).isNaN = false := isNaN_roundWithAccuracy _ _ _ _ _

theorem isNaN_normalize (spec : Format) (x e : Int) (s : Sign) :
    (normalize spec x e s).isNaN = false := by
  unfold UnpackedFloat.normalize
  cases compare x 0 with
  | lt => exact isNaN_round _ _ _ _
  | eq => rfl
  | gt => exact isNaN_round _ _ _ _

/-- No integer converts to a NaN. -/
theorem not_isNaN_ofInt (n : Int) : ¬ (Float32.ofModel (.ofInt n)).isNaN :=
  isNaN_ofModel_pack (isNaN_normalize _ _ _ _)

end Binary32

import KartFirmware.Binary32Eq
import KartFirmware.Binary32Int

/-!
# Multiples of a power of two in binary32

The floats that are an integer of up to 24 bits times `2^-g` (`OnGrid`).  Converting an
integer, dividing by a power of two and subtracting stay on the grid and are exact.  A
quotient of two of them is within a part in `2^23` of the exact one, and is 1 when they are
equal.
-/

namespace Binary32

open Float.Model Float.Model.UnpackedFloat

/-! ### Grid floats -/

def signOf (j : Int) : Sign := if j < 0 then .negative else .positive

/-- How far the digits of `j` are shifted to fill the mantissa. -/
def gridShift (j : Int) : Nat := 23 - j.natAbs.log2

/-- The float is `j * 2^-g`. -/
def OnGrid (g : Nat) (j : Int) (a : Float32) : Prop :=
  j = 0 ∧ a.toModel.unpack = .zero .positive ∨
    ∃ h, a.toModel.unpack =
      .finite (signOf j) (j.natAbs * 2 ^ gridShift j) (-(gridShift j : Int) - g) h

/-- Whatever power of two is on its digits, an integer of up to 24 bits is rounded to
itself. -/
theorem round_grid (s : Sign) {n d D g : Nat} (hn : n ≠ 0) (hlt : n < 2 ^ 24)
    (hd : d = 23 - n.log2) (hD : D ≤ 23) (hg : g ≤ 100) :
    ∃ h, UnpackedFloat.round Format.binary32 s (n * 2 ^ D) (-(D : Int) - g) =
      .finite s (n * 2 ^ d) (-(d : Int) - g) h := by
  have hlog : n.log2 ≤ 23 := Nat.le_of_lt_succ ((Nat.log2_lt hn).mpr hlt)
  have hpos : 0 < n * 2 ^ d := Nat.mul_pos (Nat.pos_of_ne_zero hn) (Nat.two_pow_pos d)
  rcases Nat.le_total d D with hle | hle
  · obtain ⟨k, rfl⟩ := Nat.exists_eq_add_of_le hle
    have hsplit : n * 2 ^ (d + k) = n * 2 ^ d * 2 ^ k := by rw [pow_add, mul_assoc]
    obtain ⟨h, hround, -, -⟩ := round_exact s (m := n * 2 ^ (d + k)) (k := k)
      (e := -((d + k : Nat) : Int) - g) (by rw [log2_mul_two_pow hn]; omega)
      (hsplit ▸ Dvd.intro_left _ rfl) (by omega)
    refine ⟨hpos, hround.trans (finite_congr rfl ?_ (by omega))⟩
    rw [hsplit, Nat.mul_div_cancel _ (Nat.two_pow_pos k)]
  · obtain ⟨k, rfl⟩ := Nat.exists_eq_add_of_le hle
    have hlogD : (n * 2 ^ D).log2 = n.log2 + D := log2_mul_two_pow hn D
    have hsplit : (n * 2 ^ D) <<< k = n * 2 ^ (D + k) := by
      rw [Nat.shiftLeft_eq, pow_add, mul_assoc]
    have hlog' : (n * 2 ^ (D + k)).log2 = 23 + 0 := by
      rw [log2_mul_two_pow hn]
      omega
    obtain ⟨h, hround, -, -⟩ := roundWithAccuracy_exact s (e := -(D : Int) - g - k) hlog'
      (one_dvd _) (by omega)
    refine ⟨hpos, ?_⟩
    rw [round_eq s (n * 2 ^ D) (-(D : Int) - g) (d := k) (by rw [hlogD]; omega), hsplit, hround]
    exact finite_congr rfl (Nat.div_one _) (by omega)

/-- A normal float on the grid, packed. -/
theorem onGrid_pack {g : Nat} {j : Int} (hg : g ≤ 100) (hj : j ≠ 0) (hlt : j.natAbs < 2 ^ 24)
    {h : 0 < j.natAbs * 2 ^ gridShift j} :
    OnGrid g j (Float32.ofModel (.pack
      (.finite (signOf j) (j.natAbs * 2 ^ gridShift j) (-(gridShift j : Int) - g) h))) := by
  obtain ⟨hlow, hhigh⟩ := mantissa_range (d := gridShift j) (by omega) hlt rfl
  have hshift : gridShift j ≤ 23 := Nat.sub_le _ _
  exact Or.inr ⟨h, unpack_pack hlow hhigh (by omega) (by omega)⟩

theorem onGrid_pack_zero (g : Nat) : OnGrid g 0 (Float32.ofModel (.pack (.zero .positive))) :=
  Or.inl ⟨rfl, rfl⟩

theorem onGrid_ofInt {n : Int} (hn : n.natAbs < 2 ^ 24) : OnGrid 0 n (ofInt n) := by
  have hrange : ∀ s, n ≠ 0 → ∃ h, UnpackedFloat.round Format.binary32 s n.natAbs 0 =
      .finite s (n.natAbs * 2 ^ gridShift n) (-(gridShift n : Int) - (0 : Nat)) h := by
    intro s hne
    obtain ⟨h, hround, -, -⟩ := round_small s (m := n.natAbs) (d := gridShift n) (by omega) hn rfl
    exact ⟨h, hround.trans (finite_congr rfl rfl (by omega))⟩
  rcases Int.lt_trichotomy n 0 with hneg | rfl | hpos
  · obtain ⟨h, hround⟩ := hrange .negative (by omega)
    have habs : (-n).toNat = n.natAbs := by omega
    have hgrid := onGrid_pack (g := 0) (by omega) (by omega : n ≠ 0) hn (h := h)
    rwa [signOf, if_pos hneg, ← hround, ← habs, ← ofInt_of_neg hneg] at hgrid
  · exact onGrid_pack_zero 0
  · obtain ⟨h, hround⟩ := hrange .positive (by omega)
    have habs : n.toNat = n.natAbs := by omega
    have hgrid := onGrid_pack (g := 0) (by omega) (by omega : n ≠ 0) hn (h := h)
    rwa [signOf, if_neg (by omega), ← hround, ← habs, ← ofInt_of_pos hpos] at hgrid

/-! ### Value and order -/

section Value

variable {g : Nat} {i j : Int} {a b : Float32}

theorem ne_zero_of_digits (h : 0 < j.natAbs * 2 ^ gridShift j) : j ≠ 0 := by
  rintro rfl
  rw [Int.natAbs_zero, Nat.zero_mul] at h
  omega

theorem OnGrid.isFinite (h : OnGrid g j a) : a.isFinite := by
  change a.toModel.unpack.isFinite = true
  rcases h with ⟨-, h⟩ | ⟨hpos, h⟩ <;> rw [h] <;> rfl

theorem OnGrid.value_eq (h : OnGrid g j a) (hg : g ≤ 100) : value a = j / 2 ^ g := by
  have hshift : gridShift j ≤ 23 := Nat.sub_le _ _
  rcases h with ⟨rfl, h⟩ | ⟨hpos, h⟩
  · rw [value, h, Int.cast_zero, zero_div]
    exact zero_div _
  · have hexp : (-(gridShift j : Int) - g + 149).toNat = 149 - gridShift j - g := by omega
    have hsplit : gridShift j + (149 - gridShift j - g) + g = 149 := by omega
    have hscaled : ((j.natAbs * 2 ^ gridShift j : Nat) : Int) *
        2 ^ (-(gridShift j : Int) - g + 149).toNat * 2 ^ g = (j.natAbs : Int) * 2 ^ 149 := by
      calc ((j.natAbs * 2 ^ gridShift j : Nat) : Int) *
            2 ^ (-(gridShift j : Int) - g + 149).toNat * 2 ^ g
          = (j.natAbs : Int) * 2 ^ (gridShift j + (149 - gridShift j - g) + g) := by
            rw [hexp]
            push_cast
            ring
        _ = (j.natAbs : Int) * 2 ^ 149 := by rw [hsplit]
    have hsign : scaled (.finite (signOf j) (j.natAbs * 2 ^ gridShift j)
        (-(gridShift j : Int) - g) hpos) * 2 ^ g = j * 2 ^ 149 := by
      rw [scaled, signOf]
      split_ifs with hneg
      · change -(((j.natAbs * 2 ^ gridShift j : Nat) : Int) *
          2 ^ (-(gridShift j : Int) - g + 149).toNat) * 2 ^ g = _
        have hminus : -(j.natAbs : Int) = j := by omega
        rw [neg_mul, hscaled, ← neg_mul, hminus]
      · change ((j.natAbs * 2 ^ gridShift j : Nat) : Int) *
          2 ^ (-(gridShift j : Int) - g + 149).toNat * 2 ^ g = _
        rw [hscaled, Int.natAbs_of_nonneg (not_lt.mp hneg)]
    rw [value, h, div_eq_div_iff (by positivity) (by positivity)]
    exact_mod_cast hsign

theorem OnGrid.eq (ha : OnGrid g j a) (hb : OnGrid g j b) : a = b := by
  apply eq_of_unpack
  obtain ⟨rfl, ha⟩ | ⟨hpos, ha⟩ := ha
  · obtain ⟨-, hb⟩ | ⟨hpos, hb⟩ := hb
    · rw [ha, hb]
    · exact absurd rfl (ne_zero_of_digits hpos)
  · obtain ⟨rfl, hb⟩ | ⟨hpos', hb⟩ := hb
    · exact absurd rfl (ne_zero_of_digits hpos)
    · rw [ha, hb]

/-- Finite floats are ordered as their values. -/
theorem lt_of_value_lt (ha : a.isFinite) (hb : b.isFinite) (h : value a < value b) : a < b := by
  by_contra hnot
  have hle := le_of_not_lt (not_isNaN_of_isFinite ha) (not_isNaN_of_isFinite hb) hnot
  exact absurd (value_le hb ha hle) (not_le.mpr h)

theorem not_lt_self (a : Float32) : ¬ a < a := fun hlt => not_lt_of_le (le_of_lt hlt) hlt

theorem OnGrid.value_lt_iff (ha : OnGrid g i a) (hb : OnGrid g j b) (hg : g ≤ 100) :
    value a < value b ↔ i < j := by
  rw [ha.value_eq hg, hb.value_eq hg, div_lt_div_iff_of_pos_right (by positivity)]
  exact Int.cast_lt

/-- On the grid the order is the order of the digits. -/
theorem OnGrid.lt_iff (ha : OnGrid g i a) (hb : OnGrid g j b) (hg : g ≤ 100) :
    a < b ↔ i < j := by
  constructor
  · intro hlt
    rcases lt_trichotomy i j with hij | rfl | hji
    · exact hij
    · exact absurd hlt (ha.eq hb ▸ not_lt_self a)
    · have hback := lt_of_value_lt hb.isFinite ha.isFinite ((hb.value_lt_iff ha hg).mpr hji)
      exact absurd hback (not_lt_of_le (le_of_lt hlt))
  · intro hij
    exact lt_of_value_lt ha.isFinite hb.isFinite ((ha.value_lt_iff hb hg).mpr hij)

theorem OnGrid.le_iff (ha : OnGrid g i a) (hb : OnGrid g j b) (hg : g ≤ 100) :
    a ≤ b ↔ i ≤ j := by
  constructor
  · intro hle
    exact not_lt.mp fun hji => not_lt_of_le hle ((hb.lt_iff ha hg).mpr hji)
  · intro hij
    refine le_of_not_lt (not_isNaN_of_isFinite hb.isFinite) (not_isNaN_of_isFinite ha.isFinite) ?_
    exact fun hlt => absurd ((hb.lt_iff ha hg).mp hlt) (not_lt.mpr hij)

theorem OnGrid.abs (ha : OnGrid g j a) (hg : g ≤ 100) (hj : j.natAbs < 2 ^ 24) :
    OnGrid g |j| a.abs := by
  have habs : a.abs = Float32.ofModel (.pack a.toModel.unpack.abs) := rfl
  rw [habs]
  obtain ⟨rfl, ha⟩ | ⟨hpos, ha⟩ := ha
  · rw [ha]
    exact onGrid_pack_zero g
  · have hne := ne_zero_of_digits hpos
    have hsame : |j|.natAbs = j.natAbs := Int.natAbs_abs j
    have hgrid := onGrid_pack (j := |j|) hg (abs_ne_zero.mpr hne) (by rwa [hsame])
      (h := by rw [gridShift, hsame]; exact hpos)
    have hsign : signOf |j| = .positive := by rw [signOf, if_neg (not_lt.mpr (abs_nonneg j))]
    simp only [hsign, gridShift, hsame] at hgrid
    rw [ha]
    exact hgrid

end Value

/-! ### Exact operations -/

theorem divCore_eq {m₁ m₂ : Nat} {e₁ e₂ : Int} (h₁ : m₁.log2 = 23) (h₂ : m₂.log2 = 23)
    (he : -125 ≤ e₁ - e₂) :
    divCore Format.binary32 m₁ e₁ m₂ e₂ =
      (m₁ * 2 ^ 24 / m₂, e₁ - e₂ - 24, accuracyOfFraction (m₁ * 2 ^ 24 % m₂) m₂) := by
  have htarget : Format.binary32.targetExponent (totalExponent m₁ e₁ - totalExponent m₂ e₂) =
      e₁ - e₂ - 24 := by
    have hdef : Format.binary32.targetExponent (totalExponent m₁ e₁ - totalExponent m₂ e₂) =
        max (((m₁.log2 : Int) + 1 + e₁ - ((m₂.log2 : Int) + 1 + e₂)) - 24) (-149) := rfl
    rw [hdef, h₁, h₂]
    omega
  have hmin : min (e₁ - e₂) (e₁ - e₂ - 24) = e₁ - e₂ - 24 := by omega
  have hshift : (e₁ - e₂ - (e₁ - e₂ - 24)).toNat = 24 := by omega
  unfold divCore
  dsimp only
  rw [htarget, hmin, hshift, Nat.shiftLeft_eq]

theorem div_finite {s₁ s₂ : Sign} {m₁ m₂ : Nat} {e₁ e₂ : Int} {h₁ : 0 < m₁} {h₂ : 0 < m₂}
    (hlog₁ : m₁.log2 = 23) (hlog₂ : m₂.log2 = 23) (he : -125 ≤ e₁ - e₂) :
    UnpackedFloat.div Format.binary32 (.finite s₁ m₁ e₁ h₁) (.finite s₂ m₂ e₂ h₂) =
      roundWithAccuracy Format.binary32 (s₁ / s₂) (m₁ * 2 ^ 24 / m₂) (e₁ - e₂ - 24)
        (accuracyOfFraction (m₁ * 2 ^ 24 % m₂) m₂) := by
  have hcore := divCore_eq hlog₁ hlog₂ he
  unfold UnpackedFloat.div
  dsimp only
  rw [hcore]

theorem div_def (a b : Float32) : a / b =
    Float32.ofModel (.pack (.div Format.binary32 a.toModel.unpack b.toModel.unpack)) := rfl

theorem sub_def (a b : Float32) : a - b =
    Float32.ofModel (.pack (.sub Format.binary32 a.toModel.unpack b.toModel.unpack)) := rfl

theorem sign_div_positive (s : Sign) : s / Sign.positive = s := by cases s <;> rfl

section Exact

variable {g d : Nat} {i j : Int} {a b : Float32}

theorem log2_mantissa (hj : j ≠ 0) (hlt : j.natAbs < 2 ^ 24) :
    (j.natAbs * 2 ^ gridShift j).log2 = 23 := by
  obtain ⟨hlow, hhigh⟩ := mantissa_range (n := j.natAbs) (d := gridShift j) (by omega) hlt rfl
  exact (Nat.log2_eq_iff (by omega)).mpr ⟨hlow, hhigh⟩

/-- Dividing by a power of two only moves the grid. -/
theorem OnGrid.div_two_pow (ha : OnGrid g j a) (hj : j.natAbs < 2 ^ 24)
    (hb : ∃ h, b.toModel.unpack = .finite .positive (2 ^ 23) ((d : Int) - 23) h)
    (hg : g + d ≤ 100) : OnGrid (g + d) j (a / b) := by
  obtain ⟨hpos', hb⟩ := hb
  rw [div_def, hb]
  rcases ha with ⟨rfl, ha⟩ | ⟨hpos, ha⟩
  · rw [ha]
    exact onGrid_pack_zero _
  · have hne := ne_zero_of_digits hpos
    have hshift : gridShift j ≤ 23 := Nat.sub_le _ _
    have hlog := log2_mantissa hne hj
    have hquot : j.natAbs * 2 ^ gridShift j * 2 ^ 24 / 2 ^ 23 =
        j.natAbs * 2 ^ gridShift j * 2 := by omega
    have hrem : j.natAbs * 2 ^ gridShift j * 2 ^ 24 % 2 ^ 23 = 0 := by omega
    have hdouble : (j.natAbs * 2 ^ gridShift j * 2).log2 = 23 + 1 := by
      have hmul := log2_mul_two_pow (Nat.pos_iff_ne_zero.mp hpos) 1
      rw [pow_one] at hmul
      rw [hmul, hlog]
    obtain ⟨h, hround, -, -⟩ := roundWithAccuracy_exact (signOf j)
      (e := -(gridShift j : Int) - g - (d - 23) - 24) hdouble (Dvd.intro_left _ (by rw [pow_one]))
      (by omega)
    rw [ha, div_finite hlog (by rw [Nat.log2_two_pow]) (by omega), hquot, hrem, sign_div_positive]
    have hexact : accuracyOfFraction 0 (2 ^ 23) = .exact := rfl
    rw [hexact, hround]
    have hsame : (UnpackedFloat.finite (signOf j) (j.natAbs * 2 ^ gridShift j * 2 / 2 ^ 1)
        (-(gridShift j : Int) - g - (d - 23) - 24 + (1 : Nat)) h) =
        .finite (signOf j) (j.natAbs * 2 ^ gridShift j) (-(gridShift j : Int) - (g + d : Nat))
          hpos := finite_congr rfl (by omega) (by omega)
    rw [hsame]
    exact onGrid_pack hg hne hj

/-- The digits of two grid floats, on a common exponent. -/
theorem apply_signOf (j : Int) (k : Nat) :
    (signOf j).apply ((j.natAbs * 2 ^ k : Nat) : Int) = j * 2 ^ k := by
  rw [signOf]
  split_ifs with hneg
  · change -((j.natAbs * 2 ^ k : Nat) : Int) = j * 2 ^ k
    have hminus : -(j.natAbs : Int) = j := by omega
    rw [Nat.cast_mul, Nat.cast_pow, ← neg_mul, hminus]
    rfl
  · change ((j.natAbs * 2 ^ k : Nat) : Int) = j * 2 ^ k
    have hplus : (j.natAbs : Int) = j := by omega
    rw [Nat.cast_mul, Nat.cast_pow, hplus]
    rfl

theorem onGrid_normalize {k : Int} (hk : k.natAbs < 2 ^ 24) {D : Nat} (hD : D ≤ 23)
    (hg : g ≤ 100) :
    OnGrid g k (Float32.ofModel (.pack
      (normalize Format.binary32 (k * 2 ^ D) (-(D : Int) - g) .positive))) := by
  have hpow : 0 < (2 : Int) ^ D := by positivity
  have hdigits : (k.natAbs * 2 ^ D : Nat) = (k * 2 ^ D).natAbs := by
    rw [Int.natAbs_mul, Int.natAbs_pow]
    rfl
  rcases Int.lt_trichotomy k 0 with hneg | rfl | hpos
  · have hlt : k * 2 ^ D < 0 := Int.mul_neg_of_neg_of_pos hneg hpow
    have habs : (-(k * 2 ^ D)).toNat = k.natAbs * 2 ^ D := by omega
    obtain ⟨h, hround⟩ := round_grid .negative (n := k.natAbs) (d := gridShift k) (g := g)
      (by omega) hk rfl hD hg
    have hgrid := onGrid_pack hg hneg.ne hk (h := h)
    rw [normalize_of_neg _ _ _ hlt, habs, hround]
    rwa [signOf, if_pos hneg] at hgrid
  · rw [Int.zero_mul]
    exact onGrid_pack_zero g
  · have hgt : 0 < k * 2 ^ D := Int.mul_pos hpos hpow
    have habs : (k * 2 ^ D).toNat = k.natAbs * 2 ^ D := by omega
    obtain ⟨h, hround⟩ := round_grid .positive (n := k.natAbs) (d := gridShift k) (g := g)
      (by omega) hk rfl hD hg
    have hgrid := onGrid_pack hg hpos.ne' hk (h := h)
    rw [normalize_of_pos _ _ _ hgt, habs, hround]
    rwa [signOf, if_neg (by omega)] at hgrid

theorem sub_finite (spec : Format) {s₁ s₂ : Sign} {m₁ m₂ : Nat} {e₁ e₂ : Int} (h₁ : 0 < m₁)
    (h₂ : 0 < m₂) :
    UnpackedFloat.sub spec (.finite s₁ m₁ e₁ h₁) (.finite s₂ m₂ e₂ h₂) =
      normalize spec
        (s₁.apply (m₁ <<< (e₁ - min e₁ e₂).toNat : Nat) -
          s₂.apply (m₂ <<< (e₂ - min e₁ e₂).toNat : Nat))
        (min e₁ e₂) .positive := rfl

/-- Subtracting stays on the grid. -/
theorem OnGrid.sub (ha : OnGrid g i a) (hb : OnGrid g j b) (hi : i.natAbs < 2 ^ 24)
    (hj : j.natAbs < 2 ^ 24) (hk : (i - j).natAbs < 2 ^ 24) (hg : g ≤ 100) :
    OnGrid g (i - j) (a - b) := by
  rw [sub_def]
  rcases ha with ⟨rfl, ha⟩ | ⟨hpos, ha⟩
  · rcases hb with ⟨rfl, hb⟩ | ⟨hpos', hb⟩
    · rw [ha, hb]
      exact onGrid_pack_zero g
    · have hne := ne_zero_of_digits hpos'
      have habs : (0 - j).natAbs = j.natAbs := by omega
      have hshift : gridShift (0 - j) = gridShift j := by rw [gridShift, habs, gridShift]
      have hsign : -signOf j = signOf (0 - j) := by
        rw [signOf, signOf]
        split_ifs with hneg hneg' hneg'
        · omega
        · rfl
        · rfl
        · omega
      have hgrid := onGrid_pack (j := 0 - j) hg (by omega) hk (h := by rwa [habs, hshift])
      have hsame : UnpackedFloat.sub Format.binary32 (.zero .positive)
          (.finite (signOf j) (j.natAbs * 2 ^ gridShift j) (-(gridShift j : Int) - g) hpos') =
          .finite (-signOf j) (j.natAbs * 2 ^ gridShift j) (-(gridShift j : Int) - g) hpos' := rfl
      rw [ha, hb, hsame]
      simp only [habs, hshift, ← hsign] at hgrid
      exact hgrid
  · rcases hb with ⟨rfl, hb⟩ | ⟨hpos', hb⟩
    · rw [ha, hb, Int.sub_zero]
      exact onGrid_pack hg (ne_zero_of_digits hpos) hi
    · have hshift : gridShift i ≤ 23 ∧ gridShift j ≤ 23 := ⟨Nat.sub_le _ _, Nat.sub_le _ _⟩
      obtain ⟨D, hD⟩ : ∃ D, D = max (gridShift i) (gridShift j) := ⟨_, rfl⟩
      have hmin : min (-(gridShift i : Int) - g) (-(gridShift j : Int) - g) = -(D : Int) - g := by
        omega
      have hcommon : ∀ n : Int, gridShift n ≤ D →
          (n.natAbs * 2 ^ gridShift n) <<< (-(gridShift n : Int) - g - (-(D : Int) - g)).toNat =
            n.natAbs * 2 ^ D := by
        intro n hn
        have hsub : (-(gridShift n : Int) - g - (-(D : Int) - g)).toNat = D - gridShift n := by
          omega
        rw [hsub, Nat.shiftLeft_eq, mul_assoc, ← pow_add, Nat.add_sub_cancel' hn]
      rw [ha, hb, sub_finite, hmin, hcommon i (by omega), hcommon j (by omega), apply_signOf,
        apply_signOf, ← Int.sub_mul]
      exact onGrid_normalize hk (by omega) hg

end Exact

/-! ### Quotients -/

/-- Rounding yields the whole part of the shifted mantissa, or one more. -/
theorem roundedMantissa_range (em : ExtendedMantissa) :
    em.mantissa ≤ em.roundedMantissa ∧ em.roundedMantissa ≤ em.mantissa + 1 := by
  obtain ⟨m, b, t⟩ := em
  have htie : (ExtendedMantissa.mk m true false).roundedMantissa = m + m % 2 := rfl
  cases b with
  | false => cases t <;> exact ⟨le_refl _, Nat.le_succ _⟩
  | true =>
    cases t with
    | true => exact ⟨Nat.le_succ _, le_refl _⟩
    | false =>
      rw [htie]
      change m ≤ m + m % 2 ∧ m + m % 2 ≤ m + 1
      omega

/-- A mantissa with more digits than fit, and whatever has been dropped behind it. -/
theorem roundWithAccuracy_bracket (s : Sign) {m k : Nat} {e : Int} (acc : Accuracy)
    (hlog : m.log2 = 23 + k) (he : -149 ≤ e) :
    ∃ r m' : Nat, ∃ e' h, roundWithAccuracy Format.binary32 s m e acc = .finite s m' e' h ∧
      2 ^ 23 ≤ m' ∧ m' < 2 ^ 24 ∧ m / 2 ^ k ≤ r ∧ r ≤ m / 2 ^ k + 1 ∧ e + k ≤ e' ∧
      e' ≤ e + k + 1 ∧ m' * 2 ^ (e' - e).toNat = r * 2 ^ k := by
  have hfirst := shiftToTargetExponent_of m e acc (k := k) (by rw [hlog]; omega)
  have hmant : (ExtendedMantissa.ofMantissaAndAccuracy m acc >>> k).mantissa = m / 2 ^ k := by
    have hself : (ExtendedMantissa.ofMantissaAndAccuracy m acc).mantissa = m := by
      cases acc with
      | exact => rfl
      | inexact o => cases o <;> rfl
    rw [shift_mantissa, hself]
  obtain ⟨hle, hge⟩ := roundedMantissa_range (ExtendedMantissa.ofMantissaAndAccuracy m acc >>> k)
  rw [hmant] at hle hge
  obtain ⟨hlow, hhigh⟩ := leading_range hlog
  obtain ⟨m', e', h, hround, hlow', hhigh', hcase⟩ := roundWithAccuracy_of (s := s) hfirst
    (by omega) (hlow.trans hle) (by omega)
  refine ⟨_, m', e', h, hround, hlow', hhigh', hle, hge, ?_, ?_, ?_⟩
  · rcases hcase with ⟨-, rfl⟩ | ⟨-, -, rfl⟩ <;> omega
  · rcases hcase with ⟨-, rfl⟩ | ⟨-, -, rfl⟩ <;> omega
  · rcases hcase with ⟨rfl, rfl⟩ | ⟨hfull, rfl, rfl⟩
    · have hexp : (e + (k : Int) - e).toNat = k := by omega
      rw [hexp]
    · have hexp : (e + (k : Int) + 1 - e).toNat = k + 1 := by omega
      rw [hexp, hfull]
      ring

theorem natDiv_bracket (n : Nat) {d : Nat} (hd : 0 < d) :
    ((n / d : Nat) : ℚ) ≤ n / d ∧ (n / d : ℚ) ≤ (n / d : Nat) + 1 := by
  have hd' : (0 : ℚ) < d := by exact_mod_cast hd
  have hfloor : n / d * d ≤ n := Nat.div_mul_le_self n d
  have hceil : n < (n / d + 1) * d := by
    rw [Nat.mul_comm]
    exact Nat.lt_mul_div_succ n hd
  rw [le_div_iff₀ hd', div_le_iff₀ hd']
  exact ⟨by exact_mod_cast hfloor, by exact_mod_cast hceil.le⟩

/-- In units of the dropped power of two the quotient and its rounding have the same whole
part, up to one. -/
theorem quotient_near {m₁ m₂ k r : Nat} (hm₂ : 0 < m₂)
    (hlog : (m₁ * 2 ^ 24 / m₂).log2 = 23 + k) (hlow : m₁ * 2 ^ 24 / m₂ / 2 ^ k ≤ r)
    (hhigh : r ≤ m₁ * 2 ^ 24 / m₂ / 2 ^ k + 1) :
    |(r : ℚ) * 2 ^ k - m₁ * 2 ^ 24 / m₂| ≤ (m₁ * 2 ^ 24 / m₂ : ℚ) / 2 ^ 23 := by
  have hk : (0 : ℚ) < 2 ^ k := by positivity
  have hq23 := (leading_range hlog).1
  rw [Nat.div_div_eq_div_mul] at hlow hhigh hq23
  obtain ⟨hfloor, hceil⟩ :=
    natDiv_bracket (m₁ * 2 ^ 24) (Nat.mul_pos hm₂ (Nat.two_pow_pos k))
  generalize m₁ * 2 ^ 24 / (m₂ * 2 ^ k) = q at *
  have hunits : (m₁ * 2 ^ 24 / m₂ : ℚ) = ((m₁ * 2 ^ 24 : Nat) / (m₂ * 2 ^ k : Nat) : ℚ) * 2 ^ k := by
    simp only [Nat.cast_mul, Nat.cast_pow, Nat.cast_ofNat]
    rw [← div_div, div_mul_cancel₀ _ hk.ne']
  rw [hunits, ← sub_mul, abs_mul, abs_of_pos hk, mul_div_right_comm]
  refine mul_le_mul_of_nonneg_right ?_ hk.le
  have hlow' : (q : ℚ) ≤ r := by exact_mod_cast hlow
  have hhigh' : (r : ℚ) ≤ q + 1 := by exact_mod_cast hhigh
  have hunit : (2 : ℚ) ^ 23 ≤ q := by exact_mod_cast hq23
  have hgap : |(r : ℚ) - (m₁ * 2 ^ 24 : Nat) / (m₂ * 2 ^ k : Nat)| ≤ 1 :=
    abs_le.mpr ⟨by linarith, by linarith⟩
  refine hgap.trans ?_
  rw [le_div_iff₀ (by norm_num)]
  linarith

theorem quotient_log {m₁ m₂ : Nat} (hlow₁ : 2 ^ 23 ≤ m₁) (hhigh₁ : m₁ < 2 ^ 24)
    (hlow₂ : 2 ^ 23 ≤ m₂) (hhigh₂ : m₂ < 2 ^ 24) :
    ∃ k ≤ 1, (m₁ * 2 ^ 24 / m₂).log2 = 23 + k := by
  have hq : 2 ^ 23 ≤ m₁ * 2 ^ 24 / m₂ ∧ m₁ * 2 ^ 24 / m₂ < 2 ^ 25 := by
    rw [Nat.le_div_iff_mul_le (by omega), Nat.div_lt_iff_lt_mul (by omega)]
    omega
  have hlow := (Nat.le_log2 (by omega)).mpr hq.1
  have hhigh := (Nat.log2_lt (by omega)).mpr hq.2
  exact ⟨(m₁ * 2 ^ 24 / m₂).log2 - 23, by omega, by omega⟩

section Quotient

variable {g : Nat} {i j k : Int} {a b c : Float32}

/-- The magnitude of a quotient, in units of the power of two that is left. -/
theorem div_units (hj0 : j ≠ 0) :
    ((i.natAbs * 2 ^ gridShift i : Nat) * 2 ^ 24 / (j.natAbs * 2 ^ gridShift j : Nat) : ℚ) *
      (2 ^ (gridShift j + 125 - gridShift i) / 2 ^ 149) = (i.natAbs : ℚ) / j.natAbs := by
  have hshift : gridShift i ≤ 23 := Nat.sub_le _ _
  have hpow : (2 : ℚ) ^ gridShift i * 2 ^ 24 * 2 ^ (gridShift j + 125 - gridShift i) =
      2 ^ gridShift j * 2 ^ 149 := by
    rw [← pow_add, ← pow_add, ← pow_add]
    congr 1
    omega
  have hj' : (j.natAbs : ℚ) ≠ 0 := by
    rw [Nat.cast_ne_zero]
    omega
  rw [div_mul_div_comm, div_eq_div_iff (by push_cast; positivity) hj']
  push_cast
  linear_combination (j.natAbs : ℚ) * i.natAbs * hpow

theorem OnGrid.div_near (ha : OnGrid g i a) (hb : OnGrid g j b) (hi0 : i ≠ 0)
    (hi : i.natAbs < 2 ^ 24) (hj0 : 0 < j) (hj : j.natAbs < 2 ^ 24) :
    (a / b).isFinite ∧ ∃ w : ℚ, value (a / b) = (if i < 0 then -w else w) ∧
      |w - i.natAbs / j.natAbs| ≤ i.natAbs / j.natAbs / 2 ^ 23 := by
  obtain ⟨hzero, -⟩ | ⟨hpos₁, ha⟩ := ha
  · exact absurd hzero hi0
  obtain ⟨hzero, -⟩ | ⟨hpos₂, hb⟩ := hb
  · exact absurd hzero hj0.ne'
  obtain ⟨hlow₁, hhigh₁⟩ := mantissa_range (n := i.natAbs) (d := gridShift i) (by omega) hi rfl
  obtain ⟨hlow₂, hhigh₂⟩ := mantissa_range (n := j.natAbs) (d := gridShift j) (by omega) hj rfl
  have hlog₁ := log2_mantissa hi0 hi
  have hlog₂ := log2_mantissa hj0.ne' hj
  have hunits := div_units (i := i) hj0.ne'
  have hshift₁ : gridShift i ≤ 23 := Nat.sub_le _ _
  have hshift₂ : gridShift j ≤ 23 := Nat.sub_le _ _
  have hsign : signOf j = .positive := by rw [signOf, if_neg (by omega)]
  rw [div_def, ha, hb, div_finite hlog₁ hlog₂ (by omega), hsign, sign_div_positive]
  generalize i.natAbs * 2 ^ gridShift i = m₁ at *
  generalize j.natAbs * 2 ^ gridShift j = m₂ at *
  obtain ⟨k, hk1, hk⟩ := quotient_log hlow₁ hhigh₁ hlow₂ hhigh₂
  obtain ⟨r, m', e', h, hround, hlow, hhigh, hr, hr', he, he', hmant⟩ :=
    roundWithAccuracy_bracket (signOf i)
      (e := -(gridShift i : Int) - g - (-(gridShift j : Int) - g) - 24)
      (accuracyOfFraction (m₁ * 2 ^ 24 % m₂) m₂) hk (by omega)
  have hnear := quotient_near hpos₂ hk hr hr'
  obtain ⟨hfinite, hvalue⟩ := value_pack (s := signOf i) (e := e') (h := h) hlow hhigh (by omega)
    (by omega)
  obtain ⟨p, hp⟩ : ∃ p, p = gridShift j + 125 - gridShift i := ⟨_, rfl⟩
  have hscaled : (m' : Int) * 2 ^ (e' + 149).toNat = r * 2 ^ k * 2 ^ p := by
    have hexp : (e' + 149).toNat =
        (e' - (-(gridShift i : Int) - g - (-(gridShift j : Int) - g) - 24)).toNat + p := by omega
    rw [hexp, pow_add, ← mul_assoc]
    exact congrArg (· * (2 : Int) ^ p) (by exact_mod_cast hmant)
  rw [hscaled] at hvalue
  rw [hround]
  refine ⟨hfinite, (r * 2 ^ k) * (2 ^ p / 2 ^ 149), hvalue.trans ?_, ?_⟩
  · rw [signOf]
    split_ifs with hneg
    · change ((-(r * 2 ^ k * 2 ^ p) : Int) : ℚ) / 2 ^ 149 = _
      push_cast
      ring
    · change ((r * 2 ^ k * 2 ^ p : Int) : ℚ) / 2 ^ 149 = _
      push_cast
      ring
  · have hunit : (0 : ℚ) < 2 ^ p / 2 ^ 149 := by positivity
    rw [← hp] at hunits
    rw [← hunits, ← sub_mul, abs_mul, abs_of_pos hunit]
    exact (mul_le_mul_of_nonneg_right hnear hunit.le).trans_eq (div_mul_eq_mul_div _ _ _)

/-- A quotient of two that differ at most in the sign is exact. -/
theorem OnGrid.div_unit (ha : OnGrid g i a) (hb : OnGrid g j b) (hj0 : 0 < j)
    (hj : j.natAbs < 2 ^ 24) (hij : i.natAbs = j.natAbs) :
    a / b = ofInt (if i < 0 then -1 else 1) := by
  have hi0 : i ≠ 0 := by omega
  obtain ⟨hzero, -⟩ | ⟨hpos₁, ha⟩ := ha
  · exact absurd hzero hi0
  obtain ⟨hzero, -⟩ | ⟨hpos₂, hb⟩ := hb
  · exact absurd hzero hj0.ne'
  have hlog₂ := log2_mantissa hj0.ne' hj
  have hsign : signOf j = .positive := by rw [signOf, if_neg (by omega)]
  have hshift : gridShift i = gridShift j := by rw [gridShift, hij, gridShift]
  have hquot : j.natAbs * 2 ^ gridShift j * 2 ^ 24 / (j.natAbs * 2 ^ gridShift j) = 2 ^ 24 :=
    Nat.mul_div_cancel_left _ hpos₂
  have hrem : j.natAbs * 2 ^ gridShift j * 2 ^ 24 % (j.natAbs * 2 ^ gridShift j) = 0 :=
    Nat.mul_mod_right _ _
  have hexact : accuracyOfFraction 0 (j.natAbs * 2 ^ gridShift j) = .exact := rfl
  have hdiff : -(gridShift j : Int) - g - (-(gridShift j : Int) - g) - 24 = -24 := by omega
  obtain ⟨h, hround, -, -⟩ := roundWithAccuracy_exact (signOf i) (m := 2 ^ 24) (k := 1) (e := -24)
    (by rw [Nat.log2_two_pow]) (Dvd.intro_left (2 ^ 23) (by norm_num)) (by omega)
  have hminus : Float32.ofModel (.pack (.finite .negative (2 ^ 24 / 2 ^ 1) (-24 + (1 : Nat))
      (by norm_num))) = ofInt (-1) := by decide +kernel
  have hplus : Float32.ofModel (.pack (.finite .positive (2 ^ 24 / 2 ^ 1) (-24 + (1 : Nat))
      (by norm_num))) = ofInt 1 := by decide +kernel
  simp only [hij, hshift] at ha
  rw [div_def, ha, hb, div_finite hlog₂ hlog₂ (by omega), hsign, sign_div_positive, hquot, hrem,
    hexact, hdiff, hround]
  by_cases hneg : i < 0
  · rw [if_pos hneg]
    have hs : signOf i = .negative := by rw [signOf, if_pos hneg]
    simp only [hs]
    exact hminus
  · rw [if_neg hneg]
    have hs : signOf i = .positive := by rw [signOf, if_neg hneg]
    simp only [hs]
    exact hplus

theorem OnGrid.zero_div (ha : OnGrid g 0 a) (hb : OnGrid g j b) (hj0 : 0 < j) :
    a / b = ofInt 0 := by
  obtain ⟨-, ha⟩ | ⟨hpos, -⟩ := ha
  · obtain ⟨hzero, -⟩ | ⟨hpos, hb⟩ := hb
    · exact absurd hzero hj0.ne'
    · have hsign : signOf j = .positive := by rw [signOf, if_neg (by omega)]
      rw [div_def, ha, hb, hsign]
      rfl
  · exact absurd rfl (ne_zero_of_digits hpos)

/-- A quotient is within a part in `2^23` of the exact one, and in `[-1, 1]` that bounds the
error itself. -/
theorem OnGrid.div_error (ha : OnGrid g i a) (hb : OnGrid g j b) (hj0 : 0 < j)
    (hj : j.natAbs < 2 ^ 24) (hij : i.natAbs ≤ j.natAbs) :
    (a / b).isFinite ∧ |value (a / b) - i / j| ≤ 1 / 2 ^ 23 := by
  have hj' : (0 : ℚ) < j := by exact_mod_cast hj0
  have habs : ((j.natAbs : Nat) : ℚ) = j := by rw [Nat.cast_natAbs, abs_of_pos hj0]
  by_cases hi0 : i = 0
  · subst hi0
    obtain ⟨hfinite, hvalue⟩ := value_ofInt (n := 0) (by norm_num)
    rw [ha.zero_div hb hj0, hvalue]
    refine ⟨hfinite, ?_⟩
    norm_num
  · obtain ⟨hfinite, w, hvalue, hnear⟩ := ha.div_near hb hi0 (hij.trans_lt hj) hj0 hj
    have hunit : (i.natAbs : ℚ) / j.natAbs / 2 ^ 23 ≤ 1 / 2 ^ 23 := by
      refine div_le_div_of_nonneg_right ?_ (by positivity)
      rw [div_le_one (by rw [habs]; exact hj')]
      exact_mod_cast hij
    refine ⟨hfinite, le_trans (le_of_eq ?_) (hnear.trans hunit)⟩
    rw [hvalue, habs]
    split_ifs with hneg
    · have hi : ((i.natAbs : Nat) : ℚ) = -i := by
        rw [Nat.cast_natAbs, abs_of_neg hneg, Int.cast_neg]
      rw [hi, neg_div, sub_neg_eq_add, ← abs_neg]
      congr 1
      ring
    · have hi : ((i.natAbs : Nat) : ℚ) = i := by
        rw [Nat.cast_natAbs, abs_of_nonneg (not_lt.mp hneg)]
      rw [hi]

/-- Of two quotients by the same float the one with the larger numerator is larger: their
errors do not add up to the gap. -/
theorem OnGrid.div_lt (ha : OnGrid g i a) (hc : OnGrid g k c) (hb : OnGrid g j b)
    (hj0 : 0 < j) (hj : j < 2 ^ 22) (hi : i.natAbs ≤ j.natAbs) (hk : k.natAbs ≤ j.natAbs)
    (hik : i < k) : a / b < c / b := by
  have hj' : (0 : ℚ) < j := by exact_mod_cast hj0
  obtain ⟨hfinite, herr⟩ := ha.div_error hb hj0 (by omega) hi
  obtain ⟨hfinite', herr'⟩ := hc.div_error hb hj0 (by omega) hk
  have hgap : (i : ℚ) / j + 1 / j ≤ k / j := by
    rw [← add_div]
    refine div_le_div_of_nonneg_right ?_ hj'.le
    exact_mod_cast hik
  have hunit : (2 : ℚ) / 2 ^ 23 < 1 / j := by
    have hcast : (j : ℚ) < 2 ^ 22 := by exact_mod_cast hj
    rw [div_lt_div_iff₀ (by positivity) hj']
    linarith
  have hlow := (abs_le.mp herr).2
  have hhigh := (abs_le.mp herr').1
  exact lt_of_value_lt hfinite hfinite' (by linarith)

end Quotient

/-! ### NaN -/

section NaN

variable {g : Nat} {j : Int} {a b : Float32}

/-- Subtracting a finite float makes no NaN. -/
theorem not_isNaN_sub (ha : ¬ a.isNaN) (hb : b.isFinite) : ¬ (a - b).isNaN := by
  rw [sub_def]
  apply isNaN_ofModel_pack
  change ¬ a.toModel.unpack.isNaN = true at ha
  change b.toModel.unpack.isFinite = true at hb
  generalize a.toModel.unpack = x at *
  generalize b.toModel.unpack = y at *
  cases y with
  | notANumber => exact Bool.noConfusion hb
  | infinity t => exact Bool.noConfusion hb
  | zero t =>
    cases x with
    | notANumber => exact absurd rfl ha
    | infinity s => rfl
    | zero s => cases s <;> cases t <;> rfl
    | finite s m e h => rfl
  | finite t m' e' h' =>
    cases x with
    | notANumber => exact absurd rfl ha
    | infinity s => rfl
    | zero s => rfl
    | finite s m e h => exact isNaN_normalize _ _ _ _

/-- Nor does dividing by one that is not 0. -/
theorem OnGrid.not_isNaN_div (ha : ¬ a.isNaN) (hb : OnGrid g j b) (hj : j ≠ 0) :
    ¬ (a / b).isNaN := by
  obtain ⟨hzero, -⟩ | ⟨hpos, hb⟩ := hb
  · exact absurd hzero hj
  rw [div_def, hb]
  apply isNaN_ofModel_pack
  change ¬ a.toModel.unpack.isNaN = true at ha
  generalize a.toModel.unpack = x at *
  cases x with
  | notANumber => exact absurd rfl ha
  | infinity s => rfl
  | zero s => rfl
  | finite s m e h => exact isNaN_roundWithAccuracy _ _ _ _ _

end NaN

end Binary32

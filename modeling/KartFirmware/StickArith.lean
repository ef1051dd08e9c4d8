import KartFirmware.Binary32Grid
import KartFirmware.ConfigRoundTrip
import KartFirmware.ExactControl

/-!
# The arithmetic of a stick's calibration

What the calibration needs of its arithmetic (`StickArith`), and the two readings
that have it.  At `ℚ` every raw value will do (`StickArith.exact`).  In binary32 a
raw value is a Bluepad32 axis over 512, a multiple of `2^-9`: such floats are
compared and subtracted exactly, and the error of their quotients is too small to
reorder them (`StickArith.binary32`).
-/

namespace KartFirmware

/-- Raw positions, and their differences (`Exact`), have values that comparison and
subtraction respect.  A difference over one at least as large is a fraction in
`[-1, 1]` that keeps the order.  A `Number` is not a NaN. -/
structure StickArith (F : Type) [CFloat F] where
  Raw : F → Prop
  Exact : F → Prop
  Number : F → Prop
  val : F → ℚ
  exact_of_raw : ∀ {a}, Raw a → Exact a
  ext : ∀ {a b}, Exact a → Exact b → val a = val b → a = b
  lt_iff : ∀ {a b}, Exact a → Exact b → (a < b ↔ val a < val b)
  le_iff : ∀ {a b}, Exact a → Exact b → (a ≤ b ↔ val a ≤ val b)
  sub : ∀ {a b}, Raw a → Raw b → Exact (a - b) ∧ val (a - b) = val a - val b
  fabs : ∀ {a}, Exact a → Exact (CFloat.fabs a) ∧ val (CFloat.fabs a) = |val a|
  sufficient : ∀ {h}, Exact h → (h > 0.2 ↔ 1 / 5 < val h)
  usable : ∀ {h}, Exact h → 1 / 5 < val h → h > 0.05
  div_zero : ∀ {d h}, Exact d → Exact h → 0 < val h → val d = 0 → d / h = 0
  div_one : ∀ {d h}, Exact d → Exact h → 0 < val h → val d = val h → d / h = 1
  div_neg_one : ∀ {d h}, Exact d → Exact h → 0 < val h → val d = -val h → d / h = -1
  div_mem : ∀ {d h}, Exact d → Exact h → 0 < val h → |val d| ≤ val h → -1 ≤ d / h ∧ d / h ≤ 1
  div_lt : ∀ {d e h}, Exact d → Exact e → Exact h → |val d| ≤ val h → |val e| ≤ val h →
    val d < val e → d / h < e / h
  clamp_of_mem : ∀ {u : F}, -1 ≤ u → u ≤ 1 → stdClamp u (-1) 1 = u
  clamp_mem : ∀ {x c h}, Number x → Raw c → Exact h → 0 < val h →
    -1 ≤ stdClamp ((x - c) / h) (-1) 1 ∧ stdClamp ((x - c) / h) (-1) 1 ≤ 1

namespace StickArith

/-- Exact arithmetic, for all raw values. -/
def exact : StickArith ℚ where
  Raw _ := True
  Exact _ := True
  Number _ := True
  val a := a
  exact_of_raw h := h
  ext _ _ h := h
  lt_iff _ _ := Iff.rfl
  le_iff _ _ := Iff.rfl
  sub _ _ := ⟨trivial, rfl⟩
  fabs _ := ⟨trivial, rfl⟩
  sufficient {h} _ := by
    change (0.2 : ℚ) < h ↔ 1 / 5 < h
    norm_num
  usable {h} _ hsuff := by
    change (0.05 : ℚ) < h
    exact lt_trans (by norm_num) hsuff
  div_zero {d h} _ _ _ hd := by
    change d / h = ((0 : Int) : ℚ)
    rw [hd, zero_div, Int.cast_zero]
  div_one {d h} _ _ hpos hd := by
    change d / h = ((1 : Int) : ℚ)
    rw [hd, div_self hpos.ne', Int.cast_one]
  div_neg_one {d h} _ _ hpos hd := by
    change d / h = -((1 : Int) : ℚ)
    rw [hd, neg_div, div_self hpos.ne', Int.cast_one]
  div_mem {d h} _ _ hpos hd := by
    change -((1 : Int) : ℚ) ≤ d / h ∧ d / h ≤ ((1 : Int) : ℚ)
    obtain ⟨hlo, hhi⟩ := abs_le.mp hd
    rw [Int.cast_one, le_div_iff₀ hpos, div_le_one hpos, neg_one_mul]
    exact ⟨hlo, hhi⟩
  div_lt {d e h} _ _ _ hd he hlt := by
    have hpos : 0 < h := by
      have hd' := (abs_le.mp hd).1
      have he' := (abs_le.mp he).2
      linarith
    exact div_lt_div_of_pos_right hlt hpos
  clamp_of_mem {u} hlo hhi := by
    have hclamp : stdClamp u (-1) 1 = if u < -((1 : Int) : ℚ) then -((1 : Int) : ℚ)
      else if ((1 : Int) : ℚ) < u then ((1 : Int) : ℚ) else u := rfl
    have hlo' : ¬ u < -((1 : Int) : ℚ) := not_lt.mpr hlo
    have hhi' : ¬ ((1 : Int) : ℚ) < u := not_lt.mpr hhi
    rw [hclamp, if_neg hlo', if_neg hhi']
  clamp_mem {x c h} _ _ _ _ := by
    have hclamp : stdClamp ((x - c) / h) (-1) 1 =
      ctl.clampf ((x - c) / h) (-((1 : Int) : ℚ)) ((1 : Int) : ℚ) := rfl
    rw [hclamp]
    exact clampf_mem (by norm_num)

end StickArith

/-! ### Binary32 -/

section Float

open Binary32

/-- `gp->axis_x / 512.0f`; the other axis is handed over with the sign changed. -/
def axisValue {F : Type} [CFloat F] (n : Int) : F := CFloat.ofInt n / 512

/-- A raw position.  Bluepad32 normalises an axis to `-512..511`; the bound leaves a factor
of two thousand. -/
def BackendAxis (a : Float32) : Prop := ∃ n : Int, n.natAbs ≤ 2 ^ 20 ∧ a = axisValue n

/-- Differences of raw positions. -/
def AxisDifference (a : Float32) : Prop := ∃ n : Int, n.natAbs < 2 ^ 22 ∧ OnGrid 9 n a

variable {a b c d e h u x : Float32}

theorem onGrid_axisValue {n : Int} (hn : n.natAbs < 2 ^ 24) :
    OnGrid 9 n (axisValue n : Float32) := by
  have hvalue : (axisValue n : Float32) = ofInt n / ofInt 512 := rfl
  have hunpack : ∃ h, (ofInt 512).toModel.unpack =
      .finite .positive (2 ^ 23) (((9 : Nat) : Int) - 23) h := by
    obtain ⟨hzero, -⟩ | ⟨hpos, hgrid⟩ := onGrid_ofInt (n := 512) (by norm_num)
    · exact absurd hzero (by norm_num)
    · exact ⟨by norm_num, hgrid⟩
  have hquot := (onGrid_ofInt hn).div_two_pow hn hunpack (by norm_num)
  rw [hvalue]
  rwa [Nat.zero_add] at hquot

theorem BackendAxis.onGrid (ha : BackendAxis a) : ∃ n : Int, n.natAbs ≤ 2 ^ 20 ∧ OnGrid 9 n a := by
  obtain ⟨n, hn, rfl⟩ := ha
  exact ⟨n, hn, onGrid_axisValue (by omega)⟩

theorem value_onGrid {n : Int} (ha : OnGrid 9 n a) : value a = n / 512 := by
  rw [ha.value_eq (by norm_num)]
  norm_num

theorem AxisDifference.isFinite (ha : AxisDifference a) : a.isFinite := by
  obtain ⟨n, hn, hgrid⟩ := ha
  exact hgrid.isFinite

theorem value_sub (ha : BackendAxis a) (hb : BackendAxis b) :
    AxisDifference (a - b) ∧ value (a - b) = value a - value b := by
  obtain ⟨i, hi, hai⟩ := ha.onGrid
  obtain ⟨j, hj, hbj⟩ := hb.onGrid
  have hgrid := hai.sub hbj (by omega) (by omega) (by omega) (by norm_num)
  refine ⟨⟨i - j, by omega, hgrid⟩, ?_⟩
  rw [value_onGrid hgrid, value_onGrid hai, value_onGrid hbj, Int.cast_sub, sub_div]

theorem AxisDifference.ext (ha : AxisDifference a) (hb : AxisDifference b)
    (h : value a = value b) : a = b := by
  obtain ⟨i, -, hai⟩ := ha
  obtain ⟨j, -, hbj⟩ := hb
  rw [value_onGrid hai, value_onGrid hbj, div_left_inj' (by norm_num), Int.cast_inj] at h
  subst h
  exact hai.eq hbj

theorem AxisDifference.lt_iff (ha : AxisDifference a) (hb : AxisDifference b) :
    a < b ↔ value a < value b := by
  obtain ⟨i, -, hai⟩ := ha
  obtain ⟨j, -, hbj⟩ := hb
  rw [hai.lt_iff hbj (by norm_num), hai.value_lt_iff hbj (by norm_num)]

theorem AxisDifference.le_iff (ha : AxisDifference a) (hb : AxisDifference b) :
    a ≤ b ↔ value a ≤ value b := by
  obtain ⟨i, -, hai⟩ := ha
  obtain ⟨j, -, hbj⟩ := hb
  rw [hai.le_iff hbj (by norm_num), ← not_lt, ← not_lt, hbj.value_lt_iff hai (by norm_num)]

theorem AxisDifference.abs (ha : AxisDifference a) :
    AxisDifference a.abs ∧ value a.abs = |value a| := by
  obtain ⟨n, hn, hgrid⟩ := ha
  have hgrid' := hgrid.abs (by norm_num) (by omega)
  refine ⟨⟨|n|, by rwa [Int.natAbs_abs], hgrid'⟩, ?_⟩
  rw [value_onGrid hgrid', value_onGrid hgrid, Int.cast_abs, abs_div,
    abs_of_pos (by norm_num : (0 : ℚ) < 512)]

/-- The two bounds of a half-amplitude. -/
theorem bounds_value : ((0.2 : Float32).isFinite ∧ value 0.2 = 13421773 / 67108864) ∧
    (0.05 : Float32).isFinite ∧ value 0.05 < 1 / 5 := by
  decide +kernel

/-- `0.2f` is a little more than a fifth, but no multiple of `2^-9` lies between. -/
theorem AxisDifference.sufficient (hh : AxisDifference h) :
    (0.2 : Float32) < h ↔ 1 / 5 < value h := by
  have hconst := bounds_value.1
  have hfinite := hh.isFinite
  obtain ⟨n, -, hgrid⟩ := hh
  have hvalue := value_onGrid hgrid
  constructor
  · intro hlt
    have hle := value_le hconst.1 hfinite (le_of_lt hlt)
    rw [hconst.2, hvalue] at hle
    rw [hvalue]
    have hn : (102 : ℚ) < n := by linarith
    have hn' : (103 : ℚ) ≤ n := by exact_mod_cast (by exact_mod_cast hn : (102 : Int) < n)
    linarith
  · intro hlt
    rw [hvalue] at hlt
    have hn : (102 : ℚ) < n := by linarith
    have hn' : (103 : ℚ) ≤ n := by exact_mod_cast (by exact_mod_cast hn : (102 : Int) < n)
    refine lt_of_value_lt hconst.1 hfinite ?_
    rw [hconst.2, hvalue]
    linarith

theorem AxisDifference.usable (hh : AxisDifference h) (hsuff : 1 / 5 < value h) :
    (0.05 : Float32) < h :=
  lt_of_value_lt bounds_value.2.1 hh.isFinite (bounds_value.2.2.trans hsuff)

/-! ### Fractions of the half-amplitude -/

theorem digits_pos {j : Int} (hh : OnGrid 9 j h) (hpos : 0 < value h) : 0 < j := by
  rw [value_onGrid hh] at hpos
  have hj : (0 : ℚ) < j := by linarith
  exact_mod_cast hj

theorem digits_le {i j : Int} (hd : OnGrid 9 i d) (hh : OnGrid 9 j h)
    (hle : |value d| ≤ value h) : i.natAbs ≤ j.natAbs := by
  rw [value_onGrid hd, value_onGrid hh, abs_div, abs_of_pos (by norm_num : (0 : ℚ) < 512),
    div_le_div_iff_of_pos_right (by norm_num), ← Int.cast_abs, Int.cast_le,
    Int.abs_eq_natAbs] at hle
  omega

theorem fraction_zero (hd : AxisDifference d) (hh : AxisDifference h) (hpos : 0 < value h)
    (hzero : value d = 0) : d / h = ofInt 0 := by
  obtain ⟨i, -, hdi⟩ := hd
  obtain ⟨j, -, hhj⟩ := hh
  rw [value_onGrid hdi, div_eq_zero_iff] at hzero
  have hi : (i : ℚ) = 0 := hzero.resolve_right (by norm_num)
  obtain rfl : i = 0 := by exact_mod_cast hi
  exact hdi.zero_div hhj (digits_pos hhj hpos)

theorem fraction_one (hd : AxisDifference d) (hh : AxisDifference h) (hpos : 0 < value h)
    (hsame : value d = value h) : d / h = ofInt 1 := by
  obtain rfl := hd.ext hh hsame
  obtain ⟨j, hj, hhj⟩ := hh
  have hj0 := digits_pos hhj hpos
  rw [hhj.div_unit hhj hj0 (by omega) rfl, if_neg (by omega)]

/-- The ends of an axis. -/
theorem axis_ends : -(ofInt 1) = ofInt (-1) ∧ ofInt (-1) ≤ ofInt (-1) ∧ ofInt (-1) ≤ ofInt 1 ∧
    ofInt 1 ≤ ofInt 1 := by
  decide +kernel

theorem neg_ofInt_one : -(ofInt 1) = ofInt (-1) := axis_ends.1

theorem fraction_neg_one (hd : AxisDifference d) (hh : AxisDifference h) (hpos : 0 < value h)
    (hopp : value d = -value h) : d / h = ofInt (-1) := by
  obtain ⟨i, hi, hdi⟩ := hd
  obtain ⟨j, hj, hhj⟩ := hh
  have hj0 := digits_pos hhj hpos
  rw [value_onGrid hdi, value_onGrid hhj, ← neg_div, div_left_inj' (by norm_num)] at hopp
  have hij : i = -j := by exact_mod_cast hopp
  rw [hdi.div_unit hhj hj0 (by omega) (by omega), if_pos (by omega)]

theorem fraction_lt (hd : AxisDifference d) (he : AxisDifference e) (hh : AxisDifference h)
    (hdh : |value d| ≤ value h) (heh : |value e| ≤ value h) (hlt : value d < value e) :
    d / h < e / h := by
  have hpos : 0 < value h := by
    have hd' := (abs_le.mp hdh).1
    have he' := (abs_le.mp heh).2
    linarith
  obtain ⟨i, -, hdi⟩ := hd
  obtain ⟨k, -, hek⟩ := he
  obtain ⟨j, hj, hhj⟩ := hh
  have hi := digits_le hdi hhj hdh
  have hk := digits_le hek hhj heh
  have hik := (hdi.value_lt_iff hek (by norm_num)).mp hlt
  exact hdi.div_lt hek hhj (digits_pos hhj hpos) (by omega) hi hk hik

theorem fraction_mem (hd : AxisDifference d) (hh : AxisDifference h) (hpos : 0 < value h)
    (hdh : |value d| ≤ value h) : ofInt (-1) ≤ d / h ∧ d / h ≤ ofInt 1 := by
  have hself : |value h| ≤ value h := (abs_of_pos hpos).le
  obtain ⟨-, hlow, -, hhigh⟩ := axis_ends
  obtain ⟨hlo, hhi⟩ := abs_le.mp hdh
  constructor
  · rcases hlo.eq_or_lt with heq | hlt
    · rw [fraction_neg_one hd hh hpos heq.symm]
      exact hlow
    · -- the far end of the other side, to compare with
      obtain ⟨j, hj, hhj⟩ := hh
      have hend : OnGrid 9 (-j) (axisValue (-j) : Float32) := onGrid_axisValue (by omega)
      have hvalue : value (axisValue (-j)) = -value h := by
        rw [value_onGrid hend, value_onGrid hhj, Int.cast_neg, neg_div]
      have hend' : AxisDifference (axisValue (-j)) := ⟨-j, by omega, hend⟩
      have hh : AxisDifference h := ⟨j, hj, hhj⟩
      rw [← fraction_neg_one hend' hh hpos hvalue]
      exact le_of_lt (fraction_lt hend' hd hh (by rwa [hvalue, abs_neg]) hdh (by rwa [hvalue]))
  · rcases hhi.eq_or_lt with heq | hlt
    · rw [fraction_one hd hh hpos heq]
      exact hhigh
    · rw [← fraction_one hh hh hpos rfl]
      exact le_of_lt (fraction_lt hd hh hh hdh hself hlt)

theorem stdClamp_fraction_mem (hx : ¬ x.isNaN) (hc : BackendAxis c) (hh : AxisDifference h)
    (hpos : 0 < value h) :
    ofInt (-1) ≤ stdClamp ((x - c) / h) (ofInt (-1)) (ofInt 1) ∧
      stdClamp ((x - c) / h) (ofInt (-1)) (ofInt 1) ≤ ofInt 1 := by
  obtain ⟨n, -, hcn⟩ := hc.onGrid
  obtain ⟨j, -, hhj⟩ := hh
  have hnum := OnGrid.not_isNaN_div (not_isNaN_sub hx hcn.isFinite) hhj (digits_pos hhj hpos).ne'
  exact stdClamp_mem hnum axis_ends.2.2.1

/-- The reports of the Bluetooth backend, in binary32. -/
def StickArith.binary32 : StickArith Float32 where
  Raw := BackendAxis
  Exact := AxisDifference
  Number a := ¬ a.isNaN
  val := value
  exact_of_raw ha := by
    obtain ⟨n, hn, hgrid⟩ := ha.onGrid
    exact ⟨n, by omega, hgrid⟩
  ext := AxisDifference.ext
  lt_iff := AxisDifference.lt_iff
  le_iff := AxisDifference.le_iff
  sub := value_sub
  fabs := AxisDifference.abs
  sufficient := AxisDifference.sufficient
  usable := AxisDifference.usable
  div_zero := fraction_zero
  div_one := fraction_one
  div_neg_one hd hh hpos hopp := by
    exact (fraction_neg_one hd hh hpos hopp).trans neg_ofInt_one.symm
  div_mem hd hh hpos hle := by
    have hmem := fraction_mem hd hh hpos hle
    rwa [← neg_ofInt_one] at hmem
  div_lt := fraction_lt
  clamp_of_mem := stdClamp_of_mem
  clamp_mem hx hc hh hpos := by
    have hmem := stdClamp_fraction_mem hx hc hh hpos
    rwa [← neg_ofInt_one] at hmem

end Float

end KartFirmware

import KartFirmware.Binary32Int
import KartFirmware.Config

/-!
# Requests out of range

What one requested value becomes: `cfgSet` narrows it and `clampAll` clamps what is
left of it.  For an integer entry the clamp is exact on every `int32_t`
(`clampParam_getI`), so the outcome is decided by the narrowing: a value whose
rounding an `int32_t` holds saturates at the nearer bound, any other one does so
only if what `lround` makes of it happens to lie beyond the same bound
(`request_saturates_iff`).
-/

set_option linter.unusedSectionVars false

namespace KartFirmware

open Binary32 KartConfig

/-! ### Clamping by value -/

/-- The value itself, or the bound nearest to it. -/
def saturated (lo hi q : ℚ) : ℚ := if q < lo then lo else if hi < q then hi else q

theorem saturated_of_le {lo hi q : ℚ} (h : lo ≤ hi) (hq : q ≤ lo) : saturated lo hi q = lo := by
  unfold saturated
  split_ifs <;> linarith

theorem saturated_of_ge {lo hi q : ℚ} (h : lo ≤ hi) (hq : hi ≤ q) : saturated lo hi q = hi := by
  unfold saturated
  split_ifs <;> linarith

theorem value_stdClamp {x lo hi : Float32} (hx : x.isFinite) (hlo : lo.isFinite)
    (hhi : hi.isFinite) (h : lo ≤ hi) :
    (stdClamp x lo hi).isFinite ∧
      value (stdClamp x lo hi) = saturated (value lo) (value hi) (value x) := by
  have hord := value_le hlo hhi h
  have hclamp : stdClamp x lo hi = if x < lo then lo else if hi < x then hi else x := rfl
  rw [hclamp]
  split_ifs with hbelow habove
  · exact ⟨hlo, (saturated_of_le hord (value_le hx hlo (le_of_lt hbelow))).symm⟩
  · exact ⟨hhi, (saturated_of_ge hord (value_le hhi hx (le_of_lt habove))).symm⟩
  · have hnum := not_isNaN_of_isFinite hx
    have hlox := value_le hlo hx (le_of_not_lt hnum (not_isNaN_of_isFinite hlo) hbelow)
    have hxhi := value_le hx hhi (le_of_not_lt (not_isNaN_of_isFinite hhi) hnum habove)
    refine ⟨hx, ?_⟩
    rw [saturated, if_neg (not_lt.mpr hlox), if_neg (not_lt.mpr hxhi)]

theorem roundHalfAway_intCast (n : Int) : roundHalfAway (n : ℚ) = n := by
  obtain ⟨hlo, hhi⟩ := roundHalfAway_mem (q := (n : ℚ)) (le_refl _) (le_refl _)
  exact le_antisymm hhi hlo

/-- Rounding and clamping between integers may be done in either order. -/
theorem roundHalfAway_saturated {lo hi : Int} (h : lo ≤ hi) (q : ℚ) :
    roundHalfAway (saturated lo hi q) = max lo (min (roundHalfAway q) hi) := by
  have hord : (lo : ℚ) ≤ hi := by exact_mod_cast h
  rcases lt_or_ge q lo with hbelow | hlow
  · have hround : roundHalfAway q ≤ lo := by
      obtain ⟨n, hn⟩ : ∃ n : Int, (n : ℚ) ≤ q := ⟨⌊q⌋, Int.floor_le q⟩
      exact (roundHalfAway_mem hn hbelow.le).2
    rw [saturated_of_le hord hbelow.le, roundHalfAway_intCast]
    omega
  · rcases lt_or_ge (hi : ℚ) q with habove | hhigh
    · have hround : hi ≤ roundHalfAway q := by
        obtain ⟨n, hn⟩ : ∃ n : Int, q ≤ (n : ℚ) := ⟨⌈q⌉, Int.le_ceil q⟩
        exact (roundHalfAway_mem habove.le hn).1
      rw [saturated_of_ge hord habove.le, roundHalfAway_intCast]
      omega
    · obtain ⟨hl, hh⟩ := roundHalfAway_mem hlow hhigh
      rw [saturated, if_neg (not_lt.mpr hlow), if_neg (not_lt.mpr hhigh)]
      omega

/-- Bounds of less than 24 bits do not notice how a larger integer is rounded. -/
theorem saturated_ofInt {lo hi : ℚ} (h : lo ≤ hi) (hlo : -2 ^ 24 ≤ lo) (hhi : hi ≤ 2 ^ 24) {n : Int}
    (hn : -2 ^ 31 ≤ n) (hn' : n < 2 ^ 31) :
    (ofInt n).isFinite ∧ saturated lo hi (value (ofInt n)) = saturated lo hi n := by
  rcases Nat.lt_or_ge n.natAbs (2 ^ 24) with hsmall | hlarge
  · obtain ⟨hfinite, hvalue⟩ := value_ofInt hsmall
    exact ⟨hfinite, by rw [hvalue]⟩
  · rcases lt_or_ge n 0 with hneg | hpos
    · obtain ⟨hfinite, v, hvalue, -, hv⟩ := value_ofInt_small hn (by omega)
      have hvq : (v : ℚ) ≤ -2 ^ 24 := by exact_mod_cast hv
      have hnq : (n : ℚ) ≤ -2 ^ 24 := by
        have hle : n ≤ -2 ^ 24 := by omega
        exact_mod_cast hle
      rw [hvalue, saturated_of_le h (hvq.trans hlo), saturated_of_le h (hnq.trans hlo)]
      exact ⟨hfinite, rfl⟩
    · obtain ⟨hfinite, v, hvalue, hv, -⟩ := value_ofInt_large (by omega) hn'
      have hvq : (2 ^ 24 : ℚ) ≤ v := by exact_mod_cast hv
      have hnq : (2 ^ 24 : ℚ) ≤ n := by
        have hle : 2 ^ 24 ≤ n := by omega
        exact_mod_cast hle
      rw [hvalue, saturated_of_ge h (hhi.trans hvq), saturated_of_ge h (hhi.trans hnq)]
      exact ⟨hfinite, rfl⟩

/-! ### One turn of the clamp -/

/-- The bounds of an entry have less than 24 bits and are apart. -/
def ParamEntry.Narrow : ParamEntry Float32 → Prop
  | .float lo _ hi _ => -2 ^ 24 ≤ value lo ∧ value hi ≤ 2 ^ 24
  | .int _ lo _ hi _ => -2 ^ 24 < lo ∧ lo < hi ∧ hi < 2 ^ 24

instance : (e : ParamEntry Float32) → Decidable e.Narrow
  | .float _ _ _ _ => instDecidableAnd
  | .int _ _ _ _ _ => instDecidableAnd

theorem PARAMS_narrow : ∀ p ∈ (PARAMS : List (ParamDesc Float32)), p.entry.Narrow := by
  decide +kernel

theorem lround_of_fits (unspecified : Float32 → Int) {x : Float32} (hx : x.isFinite)
    (hlow : -2 ^ 31 ≤ roundHalfAway (value x)) (hhigh : roundHalfAway (value x) < 2 ^ 31) :
    lround unspecified x = roundHalfAway (value x) := if_pos ⟨hx, by omega, by omega⟩

theorem toInt32_mem (n : Int) : -2 ^ 31 ≤ toInt32 n ∧ toInt32 n < 2 ^ 31 := by
  unfold toInt32
  have hlow := Int.le_bmod (x := n) (m := 2 ^ 32) (by norm_num)
  have hhigh := Int.bmod_lt (x := n) (m := 2 ^ 32) (by norm_num)
  omega

section Turn

variable (unspecified : Float32 → Int) {c : KartConfig Float32} {p : ParamDesc Float32}

/-- The turn of `clampAll` for an integer entry is exact on every `int32_t`. -/
theorem clampParam_getI {t : IntType} {lo d hi : Int} {i : IntField}
    (he : p.entry = .int t lo d hi i) (hp : p ∈ (PARAMS : List (ParamDesc Float32)))
    (hlow : -2 ^ 31 ≤ c.getI i) (hhigh : c.getI i < 2 ^ 31) :
    (clampParam (lround unspecified) c p).getI i = max lo (min (c.getI i) hi) := by
  have hsound := PARAMS_sound p hp
  have hnarrow := PARAMS_narrow p hp
  rw [he] at hsound hnarrow
  obtain ⟨-, -, -, -, -, -, hord, hflo, hfhi, hvlo, hvhi⟩ := hsound
  obtain ⟨hlo, hlohi, hhi⟩ := hnarrow
  have hturn : (clampParam (lround unspecified) c p).getI i =
      toInt32 (lround unspecified
        (stdClamp (ofInt (c.getI i)) (CFloat.ofInt lo) (CFloat.ofInt hi))) := by
    rw [clampParam, cfgSet, cfgGet, cfgMin, cfgMax, he]
    exact getI_setI_same c i _
  have hlohi' : (lo : ℚ) ≤ hi := by exact_mod_cast hlohi.le
  obtain ⟨hfinite, hsat⟩ := saturated_ofInt hlohi' (by exact_mod_cast hlo.le)
    (by exact_mod_cast hhi.le) hlow hhigh
  obtain ⟨hclamp, hvalue⟩ := value_stdClamp hfinite hflo hfhi hord
  have hround : roundHalfAway
      (value (stdClamp (ofInt (c.getI i)) (CFloat.ofInt lo) (CFloat.ofInt hi))) =
        max lo (min (c.getI i) hi) := by
    rw [hvalue, hvlo, hvhi, hsat, roundHalfAway_saturated hlohi.le, roundHalfAway_intCast]
  rw [hturn, lround_of_fits unspecified hclamp (by omega) (by omega), hround,
    toInt32_of_mem (by omega) (by omega)]

theorem clampParam_getF {lo d hi : Float32} {f : FloatField} (he : p.entry = .float lo d hi f) :
    (clampParam (lround unspecified) c p).getF f = stdClamp (c.getF f) lo hi := by
  rw [clampParam, cfgSet, cfgGet, cfgMin, cfgMax, he]
  exact getF_setF_same c f _

end Turn

/-! ### What a request becomes -/

/-- The member of the entry holds the requested value, or the bound nearest to it;
an integer entry holds the nearest integer. -/
def ParamEntry.Saturated (q : ℚ) (c : KartConfig Float32) : ParamEntry Float32 → Prop
  | .float lo _ hi f => (c.getF f).isFinite ∧ value (c.getF f) = saturated (value lo) (value hi) q
  | .int _ lo _ hi i => c.getI i = roundHalfAway (saturated lo hi q)

instance (q : ℚ) (c : KartConfig Float32) : (e : ParamEntry Float32) → Decidable (e.Saturated q c)
  | .float _ _ _ _ => instDecidableAnd
  | .int _ _ _ _ _ => inferInstanceAs (Decidable (_ = _))

/-- The narrowing keeps the requested value on its side: an `int32_t` holds its
rounding, or what `lround` makes of it is at or beyond the same bound. -/
def ParamEntry.Survives (unspecified : Float32 → Int) (v : Float32) : ParamEntry Float32 → Prop
  | .float _ _ _ _ => True
  | .int _ lo _ hi _ => (2 ^ 31 ≤ roundHalfAway (value v) → hi ≤ toInt32 (unspecified v)) ∧
    (roundHalfAway (value v) < -2 ^ 31 → toInt32 (unspecified v) ≤ lo)

section Request

variable (unspecified : Float32 → Int) (c : KartConfig Float32) {p : ParamDesc Float32}
  (hp : p ∈ (PARAMS : List (ParamDesc Float32)))

include hp

theorem clampAll_cfgSet_getI {t : IntType} {lo d hi : Int} {i : IntField}
    (he : p.entry = .int t lo d hi i) (v : Float32) :
    ((cfgSet (lround unspecified) c p v).clampAll (lround unspecified)).getI i =
      max lo (min (toInt32 (lround unspecified v)) hi) := by
  have hpass := foldl_sameAt (clampParam_turn (lround unspecified)) fields_nodup hp
    (cfgSet (lround unspecified) c p v)
  rw [he] at hpass
  have hset : (cfgSet (lround unspecified) c p v).getI i = toInt32 (lround unspecified v) := by
    rw [cfgSet, he]
    exact getI_setI_same c i _
  have hmem := toInt32_mem (lround unspecified v)
  refine Eq.trans hpass ?_
  rw [clampParam_getI unspecified he hp (by omega) (by omega), hset]

theorem clampAll_cfgSet_getF {lo d hi : Float32} {f : FloatField}
    (he : p.entry = .float lo d hi f) (v : Float32) :
    ((cfgSet (lround unspecified) c p v).clampAll (lround unspecified)).getF f =
      stdClamp v lo hi := by
  have hpass := foldl_sameAt (clampParam_turn (lround unspecified)) fields_nodup hp
    (cfgSet (lround unspecified) c p v)
  rw [he] at hpass
  refine Eq.trans hpass ?_
  rw [clampParam_getF unspecified he, cfgSet, he]
  exact congrArg (fun x => stdClamp x lo hi) (getF_setF_same c f v)

theorem cfgSet_saturates_iff {v : Float32} (hv : v.isFinite) :
    p.entry.Saturated (value v)
        ((cfgSet (lround unspecified) c p v).clampAll (lround unspecified)) ↔
      p.entry.Survives unspecified v := by
  have hsound := PARAMS_sound p hp
  have hnarrow := PARAMS_narrow p hp
  cases he : p.entry with
  | float lo d hi f =>
    rw [he] at hsound
    refine iff_of_true ?_ trivial
    rw [ParamEntry.Saturated, clampAll_cfgSet_getF unspecified c hp he]
    exact value_stdClamp hv hsound.2.2.2.1 hsound.2.2.2.2 hsound.1
  | int t lo d hi i =>
    rw [he] at hnarrow
    obtain ⟨hlo, hlohi, hhi⟩ := hnarrow
    rw [ParamEntry.Saturated, ParamEntry.Survives, clampAll_cfgSet_getI unspecified c hp he,
      roundHalfAway_saturated hlohi.le]
    by_cases hfits : -2 ^ 31 ≤ roundHalfAway (value v) ∧ roundHalfAway (value v) < 2 ^ 31
    · rw [lround_of_fits unspecified hv hfits.1 hfits.2, toInt32_of_mem (by omega) (by omega)]
      refine iff_of_true rfl ⟨?_, ?_⟩ <;> intro hout <;> omega
    · have hopen : lround unspecified v = unspecified v := by
        refine if_neg ?_
        rintro ⟨-, hlow, hhigh⟩
        exact hfits ⟨by omega, by omega⟩
      rw [hopen]
      omega

end Request

/-! ### The three ways in -/

/-- An integer request is widened to `float` first: from `2^31 - 64` on it becomes
`2^31`. -/
def ParamEntry.SurvivesInt (unspecified : Float32 → Int) (i : Int) : ParamEntry Float32 → Prop
  | .float _ _ _ _ => True
  | .int _ _ _ hi _ => 2 ^ 31 - 64 ≤ i → hi ≤ toInt32 (unspecified (ofInt i))

theorem survives_ofInt (unspecified : Float32 → Int) {e : ParamEntry Float32} {n : Int}
    (hn : -2 ^ 31 ≤ n) (hn' : n < 2 ^ 31) :
    e.Survives unspecified (ofInt n) ↔ e.SurvivesInt unspecified n := by
  cases e with
  | float lo d hi f => exact Iff.rfl
  | int t lo d hi i =>
    have hround : -2 ^ 31 ≤ roundHalfAway (value (ofInt n)) ∧
        (2 ^ 31 ≤ roundHalfAway (value (ofInt n)) ↔ 2 ^ 31 - 64 ≤ n) := by
      rcases Nat.lt_or_ge n.natAbs (2 ^ 24) with hsmall | hlarge
      · rw [(value_ofInt hsmall).2, roundHalfAway_intCast]
        omega
      · rcases lt_or_ge n 0 with hneg | hpos
        · obtain ⟨-, v, hvalue, hlow, hhigh⟩ := value_ofInt_small hn (by omega)
          rw [hvalue, roundHalfAway_intCast]
          omega
        · obtain ⟨-, v, hvalue, hlow, hnear, -, htop⟩ := value_ofInt_large (by omega) hn'
          rw [hvalue, roundHalfAway_intCast]
          omega
    obtain ⟨hlow, htop⟩ := hround
    simp only [ParamEntry.Survives, ParamEntry.SurvivesInt, htop]
    exact and_iff_left (fun hbelow => absurd hlow (not_le.mpr hbelow))

theorem saturated_congr {e : ParamEntry Float32} {q : ℚ} {c c' : KartConfig Float32}
    (h : SameAt e.field c c') : e.Saturated q c ↔ e.Saturated q c' := by
  cases e with
  | float lo d hi f =>
    have hf : c.getF f = c'.getF f := h
    rw [ParamEntry.Saturated, ParamEntry.Saturated, hf]
  | int t lo d hi i =>
    have hi : c.getI i = c'.getI i := h
    rw [ParamEntry.Saturated, ParamEntry.Saturated, hi]

section Ways

variable (unspecified : Float32 → Int) {p : ParamDesc Float32}
  (hp : p ∈ (PARAMS : List (ParamDesc Float32)))

include hp

theorem saturated_ofInt_iff {n : Int} (hn : -2 ^ 31 ≤ n) (hn' : n < 2 ^ 31)
    (c : KartConfig Float32) :
    p.entry.Saturated (value (ofInt n)) c ↔ p.entry.Saturated n c := by
  have hsound := PARAMS_sound p hp
  have hnarrow := PARAMS_narrow p hp
  cases he : p.entry with
  | float lo d hi f =>
    rw [he] at hsound hnarrow
    have hord := value_le hsound.2.2.2.1 hsound.2.2.2.2 hsound.1
    rw [ParamEntry.Saturated, ParamEntry.Saturated,
      (saturated_ofInt hord hnarrow.1 hnarrow.2 hn hn').2]
  | int t lo d hi i =>
    rw [he] at hnarrow
    have hord : (lo : ℚ) ≤ hi := by exact_mod_cast hnarrow.2.1.le
    rw [ParamEntry.Saturated, ParamEntry.Saturated,
      (saturated_ofInt hord (by exact_mod_cast hnarrow.1.le)
        (by exact_mod_cast hnarrow.2.2.le) hn hn').2]

/-- What `configLoad` makes of an entry is what it makes of the stored value of that
entry alone. -/
theorem configLoad_sameAt (s : ConfigStore) (r : NvsResults) (uninit : KartConfig Float32)
    (hopens : r.opens = true) :
    SameAt p.entry.field (configLoad unspecified s r uninit).1.cfg
      ((loadParam unspecified s.nvs (uninit.setDefaults (lround unspecified)) p).clampAll
        (lround unspecified)) := by
  have hload := foldl_sameAt (loadParam_turn unspecified s.nvs) fields_nodup hp
    (uninit.setDefaults (lround unspecified))
  have hcfg : (configLoad unspecified s r uninit).1.cfg =
      (PARAMS.foldl (loadParam unspecified s.nvs)
        (uninit.setDefaults (lround unspecified))).clampAll (lround unspecified) := by
    rw [configLoad, if_pos hopens]
  rw [hcfg]
  exact foldl_congr (clampParam_turn (lround unspecified)) fields_nodup hp hload

/-- **When a request out of range saturates.**  Requested as an integer, as a float or
found in the NVS, a finite value is stored as itself or as the bound nearest to it
exactly when it survives the narrowing. -/
theorem request_saturates_iff :
    (∀ (s : ConfigStore) (r : NvsResults) (snapshot uninit : KartConfig Float32) (persist : Bool)
        (i : Int), -2 ^ 31 ≤ i → i < 2 ^ 31 →
      (p.entry.Saturated i (configUpdate unspecified s r
          (draft unspecified snapshot uninit { name := p.name, value := .ival i } []) persist).cfg ↔
        p.entry.SurvivesInt unspecified i)) ∧
      (∀ (s : ConfigStore) (r : NvsResults) (snapshot uninit : KartConfig Float32)
          (persist : Bool) (v : Float32), v.isFinite →
        (p.entry.Saturated (value v) (configUpdate unspecified s r
            (draft unspecified snapshot uninit { name := p.name, value := .fval v } [])
            persist).cfg ↔
          p.entry.Survives unspecified v)) ∧
      ∀ (s : ConfigStore) (r : NvsResults) (uninit : KartConfig Float32) (v : Float32),
        r.opens = true → readFloat s.nvs p.name = some v → v.isFinite →
        (p.entry.Saturated (value v) (configLoad unspecified s r uninit).1.cfg ↔
          p.entry.Survives unspecified v) := by
  refine ⟨?_, ?_, ?_⟩
  · intro s r snapshot uninit persist i hlow hhigh
    have hfinite : (ofInt i).isFinite := by
      have hbounds : (-2 ^ 24 : ℚ) ≤ 2 ^ 24 := by norm_num
      exact (saturated_ofInt hbounds (le_refl _) (le_refl _) hlow hhigh).1
    rw [configUpdate_cfg, draft_eq_foldl, List.foldl_cons, List.foldl_nil,
      setPair_of_name unspecified hp snapshot rfl (v := ofInt i) rfl,
      ← saturated_ofInt_iff hp hlow hhigh, cfgSet_saturates_iff unspecified snapshot hp hfinite]
    exact survives_ofInt unspecified hlow hhigh
  · intro s r snapshot uninit persist v hv
    rw [configUpdate_cfg, draft_eq_foldl, List.foldl_cons, List.foldl_nil,
      setPair_of_name unspecified hp snapshot rfl (v := v) rfl]
    exact cfgSet_saturates_iff unspecified snapshot hp hv
  · intro s r uninit v hopens hstored hv
    have hload : loadParam unspecified s.nvs (uninit.setDefaults (lround unspecified)) p =
        cfgSet (lround unspecified) (uninit.setDefaults (lround unspecified)) p v := by
      unfold loadParam
      rw [hstored]
    rw [saturated_congr (configLoad_sameAt unspecified hp s r uninit hopens), hload]
    exact cfgSet_saturates_iff unspecified _ hp hv

end Ways

/-- The entry `arm_hold_ms`, whose bounds are 200 and 5000. -/
def armHoldParam : ParamDesc Float32 := (PARAMS : List (ParamDesc Float32))[11]

theorem armHoldParam_mem : armHoldParam ∈ (PARAMS : List (ParamDesc Float32)) :=
  List.getElem_mem _

/-- `lround` where `long` holds every rounded value. -/
def wideLong (x : Float32) : Int := roundHalfAway (value x)

def flashOk : NvsResults where
  opens := true
  sets _ := true
  commits := true

def blankStore : ConfigStore where
  cfg := factoryCfg
  nvs _ := none

theorem request_saturates_iff_armHold :
    armHoldParam.entry.Saturated (6000 : Int) (configUpdate wideLong blankStore flashOk
        (draft wideLong factoryCfg factoryCfg { name := armHoldParam.name, value := .ival 6000 } [])
        true).cfg ↔
      armHoldParam.entry.SurvivesInt wideLong 6000 :=
  (request_saturates_iff wideLong armHoldParam_mem).1 blankStore flashOk factoryCfg factoryCfg true
    6000 (by norm_num) (by norm_num)

/-- Three requests far above the maximum of `arm_hold_ms`: the largest `ival` and 3e9
end up at the minimum, and a stored `2^32 + 512` in the middle of the range. -/
theorem huge_request_stored_low :
    (configUpdate wideLong blankStore flashOk
        (draft wideLong factoryCfg factoryCfg
          { name := "arm_hold_ms", value := .ival 2147483647 } []) true).cfg.armHoldMs = 200 ∧
      (configUpdate wideLong blankStore flashOk
        (draft wideLong factoryCfg factoryCfg
          { name := "arm_hold_ms", value := .fval 3000000000 } []) true).cfg.armHoldMs = 200 ∧
      (configLoad wideLong
        { blankStore with
          nvs := fun key => if key = "arm_hold_ms" then some (encodeFloat 4294967808) else none }
        flashOk factoryCfg).1.cfg.armHoldMs = 512 ∧
      ¬ armHoldParam.entry.Saturated (2147483647 : Int) (configUpdate wideLong blankStore flashOk
        (draft wideLong factoryCfg factoryCfg
          { name := "arm_hold_ms", value := .ival 2147483647 } []) true).cfg := by
  decide +kernel

end KartFirmware

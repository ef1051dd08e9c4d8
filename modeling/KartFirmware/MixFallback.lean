import KartFirmware.ControlMath
import KartFirmware.Saturation

/-!
# The mixer after loading

`mixerFor` falls back to the linear mixer on a type it does not know, but it never
sees one: `clampAll` has rewritten the loaded type to the nearest of 0 and 1 by
then.  So a stored type from another firmware gives the linear mixer exactly when it
is clamped downward (`mix_fallback_iff`).
-/

namespace KartFirmware

open Binary32 KartConfig

/-! ### The loaded type -/

/-- The entry `mix_type`. -/
def mixTypeParam : ParamDesc Float32 := (PARAMS : List (ParamDesc Float32))[3]

theorem mixTypeParam_mem : mixTypeParam ∈ (PARAMS : List (ParamDesc Float32)) :=
  List.getElem_mem _

section Load

variable (unspecified : Float32 → Int)

theorem setDefaults_mixType (c : KartConfig Float32) :
    (c.setDefaults (lround unspecified)).mixType = 0 := by
  have hpass := foldl_sameAt (setDefaults_turn (F := Float32) (lround unspecified)) fields_nodup
    mixTypeParam_mem c
  have hzero : value (ofInt 0) = ((0 : Int) : ℚ) := (value_ofInt (by norm_num)).2
  have hround : lround unspecified (ofInt 0) = 0 := by
    have hfits : roundHalfAway (value (ofInt 0)) = 0 := by rw [hzero, roundHalfAway_intCast]
    rw [lround_of_fits unspecified (value_ofInt (by norm_num)).1 (by omega) (by omega), hfits]
  refine Eq.trans hpass ?_
  change toInt32 (lround unspecified (ofInt 0)) = 0
  rw [hround]
  rfl

theorem configLoad_mixType (s : ConfigStore) (r : NvsResults) (uninit : KartConfig Float32) :
    (configLoad unspecified s r uninit).1.cfg.mixType =
      if r.opens then
        match readFloat s.nvs "mix_type" with
        | some v => max 0 (min (toInt32 (lround unspecified v)) 1)
        | none => 0
      else 0 := by
  have hdefault := setDefaults_mixType unspecified uninit
  cases hopens : r.opens with
  | false =>
    rw [configLoad, if_neg (by simp [hopens])]
    exact hdefault
  | true =>
    rw [if_pos rfl]
    refine Eq.trans (configLoad_sameAt unspecified mixTypeParam_mem s r uninit hopens) ?_
    have hname : readFloat s.nvs mixTypeParam.name = readFloat s.nvs "mix_type" := rfl
    unfold loadParam
    rw [hname]
    cases readFloat s.nvs "mix_type" with
    | some v => exact clampAll_cfgSet_getI unspecified _ mixTypeParam_mem rfl v
    | none =>
      have hpass := foldl_sameAt (clampParam_turn (F := Float32) (lround unspecified)) fields_nodup
        mixTypeParam_mem (uninit.setDefaults (lround unspecified))
      have hgetI : (uninit.setDefaults (lround unspecified)).getI .mixType = 0 := hdefault
      refine Eq.trans hpass ?_
      change (clampParam (lround unspecified) _ mixTypeParam).getI .mixType = 0
      rw [clampParam_getI unspecified (p := mixTypeParam) rfl mixTypeParam_mem (by omega)
        (by omega), hgetI]
      rfl

end Load

/-! ### The promise -/

/-- The stored number is 1. -/
def StoredOne (v : Float32) : Prop := v.isFinite ∧ value v = 1

instance (v : Float32) : Decidable (StoredOne v) := inferInstanceAs (Decidable (_ ∧ _))

/-- The mixer a kart should drive with: the linear one when nothing is stored, the one
asked for by a stored 1 or 0, and the linear one for every other stored number, an infinity
included. -/
structure MixPromised (stored : Option Float32)
    (mix : Float32 → Float32 → KartConfig Float32 → Float32 × Float32) : Prop where
  unset : stored = none → mix = MixerLinear.mix
  expo : ∀ v, stored = some v → StoredOne v → mix = MixerExpo.mix
  linear : ∀ v, stored = some v → ¬ v.isNaN → ¬ StoredOne v → mix = MixerLinear.mix

/-- What a stored type finds in the namespace: nothing if it is not opened. -/
def storedMix (s : ConfigStore) (r : NvsResults) : Option Float32 :=
  if r.opens then readFloat s.nvs "mix_type" else none

/-- The stored number is 1, or it rounds to an `int32_t` and is clamped downward. -/
def MixLoads (v : Float32) : Prop :=
  v.isFinite ∧ (value v = 1 ∨ -2 ^ 31 ≤ roundHalfAway (value v) ∧ value v < 1 / 2)

theorem mixers_differ :
    (MixerExpo.mix : Float32 → Float32 → KartConfig Float32 → Float32 × Float32) ≠
      MixerLinear.mix := by
  intro hsame
  have happly := congrFun (congrFun (congrFun hsame 0.5) 0) factoryCfg
  revert happly
  decide +kernel

theorem mixerFor_eq_linear_iff (type : Int) :
    (mixerFor type : Float32 → Float32 → KartConfig Float32 → Float32 × Float32) =
      MixerLinear.mix ↔ type ≠ 1 := by
  unfold mixerFor
  split_ifs with hone
  · exact iff_of_false mixers_differ (not_not.mpr hone)
  · exact iff_of_true rfl hone

theorem roundHalfAway_le_zero_iff {q : ℚ} : roundHalfAway q ≤ 0 ↔ q < 1 / 2 := by
  unfold roundHalfAway
  split_ifs with hq
  · rw [← Int.lt_add_one_iff, Int.floor_lt]
    constructor <;> intro h <;> push_cast at * <;> linarith
  · have hpos : 0 ≤ ⌊-q + 1 / 2⌋ := Int.floor_nonneg.mpr (by linarith)
    exact iff_of_true (by omega) (by linarith)

/-- The type that `lround` makes of a number it can represent. -/
theorem lround_le_zero_iff (unspecified : Float32 → Int) {v : Float32} (hfinite : v.isFinite)
    (hlow : -2 ^ 31 ≤ roundHalfAway (value v)) (hhigh : roundHalfAway (value v) < 2 ^ 31) :
    toInt32 (lround unspecified v) ≤ 0 ↔ value v < 1 / 2 := by
  rw [lround_of_fits unspecified hfinite hlow hhigh, toInt32_of_mem (by omega) (by omega)]
  exact roundHalfAway_le_zero_iff

/-- Of a number that it cannot represent `lround` may make any type. -/
theorem exists_lround_one {v : Float32}
    (hwide : ¬ (v.isFinite ∧ -2 ^ 31 ≤ roundHalfAway (value v) ∧
      roundHalfAway (value v) < 2 ^ 31)) :
    ∃ unspecified : Float32 → Int, toInt32 (lround unspecified v) = 1 := by
  refine ⟨fun _ => 1, ?_⟩
  rw [lround, if_neg fun h => hwide ⟨h.1, by omega, by omega⟩]
  rfl

/-- The loaded type is linear for every answer of `lround` exactly below 1/2. -/
theorem loads_linear_iff {v : Float32} :
    (∀ unspecified, toInt32 (lround unspecified v) ≤ 0) ↔
      v.isFinite ∧ -2 ^ 31 ≤ roundHalfAway (value v) ∧ value v < 1 / 2 := by
  constructor
  · intro hall
    by_cases hfits : v.isFinite ∧ -2 ^ 31 ≤ roundHalfAway (value v) ∧
        roundHalfAway (value v) < 2 ^ 31
    · obtain ⟨hfinite, hlow, hhigh⟩ := hfits
      exact ⟨hfinite, hlow, (lround_le_zero_iff (fun _ => 0) hfinite hlow hhigh).mp (hall _)⟩
    · obtain ⟨unspecified, hone⟩ := exists_lround_one hfits
      have hle := hall unspecified
      omega
  · rintro ⟨hfinite, hlow, hhalf⟩ unspecified
    have hround := roundHalfAway_le_zero_iff.mpr hhalf
    exact (lround_le_zero_iff unspecified hfinite hlow (by omega)).mpr hhalf

/-- The mixer of a loaded type. -/
theorem mixerFor_clamped_iff (type : Int) :
    (mixerFor (max 0 (min type 1)) :
      Float32 → Float32 → KartConfig Float32 → Float32 × Float32) = MixerLinear.mix ↔
        type ≤ 0 := by
  rw [mixerFor_eq_linear_iff]
  omega

/-- **When a stored mixing type keeps its promise**, whatever `lround` makes of a number that
it cannot represent. -/
theorem mix_fallback_iff (s : ConfigStore) (r : NvsResults) (uninit : KartConfig Float32) :
    (∀ unspecified, MixPromised (storedMix s r)
        (mixerFor (configLoad unspecified s r uninit).1.cfg.mixType)) ↔
      ∀ v, storedMix s r = some v → ¬ v.isNaN → MixLoads v := by
  simp only [configLoad_mixType]
  unfold storedMix
  cases r.opens with
  | false =>
    refine iff_of_true (fun _ => ⟨fun _ => rfl, fun v hv => ?_, fun v hv => ?_⟩) fun v hv => ?_ <;>
      exact nomatch hv
  | true =>
    simp only [if_true]
    cases readFloat s.nvs "mix_type" with
    | none =>
      refine iff_of_true (fun _ => ⟨fun _ => rfl, fun v hv => ?_, fun v hv => ?_⟩)
        fun v hv => ?_ <;> exact nomatch hv
    | some v =>
      constructor
      · intro hpromise w hw hnumber
        cases hw
        by_cases hone : StoredOne v
        · exact ⟨hone.1, Or.inl hone.2⟩
        · have hlinear := fun unspecified =>
            (mixerFor_clamped_iff _).mp ((hpromise unspecified).linear v rfl hnumber hone)
          obtain ⟨hfinite, hlow, hhalf⟩ := loads_linear_iff.mp hlinear
          exact ⟨hfinite, Or.inr ⟨hlow, hhalf⟩⟩
      · intro hloads unspecified
        refine ⟨fun hnone => (nomatch hnone), fun w hw hone => ?_, fun w hw hnumber hone => ?_⟩
        · cases hw
          have hround : roundHalfAway (value v) = 1 := by
            rw [hone.2]
            exact roundHalfAway_intCast 1
          change mixerFor (max 0 (min (toInt32 (lround unspecified v)) 1)) = MixerExpo.mix
          rw [lround_of_fits unspecified hone.1 (by omega) (by omega), hround]
          rfl
        · cases hw
          obtain ⟨hfinite, hone' | hlow⟩ := hloads v rfl hnumber
          · exact absurd ⟨hfinite, hone'⟩ hone
          · exact (mixerFor_clamped_iff _).mpr (loads_linear_iff.mpr ⟨hfinite, hlow⟩ unspecified)

/-- The retired third type, stored by an older firmware. -/
def retiredStore : ConfigStore where
  cfg := factoryCfg
  nvs key := if key = "mix_type" then some (encodeFloat 2) else none

/-- A stored `mix_type` of 2 drives with the exponential mixer. -/
theorem retired_type_drives_expo :
    storedMix retiredStore flashOk = some 2 ∧
      (configLoad wideLong retiredStore flashOk factoryCfg).1.cfg.mixType = 1 ∧
      ¬ MixPromised (storedMix retiredStore flashOk)
        (mixerFor (configLoad wideLong retiredStore flashOk factoryCfg).1.cfg.mixType) := by
  have hstored : storedMix retiredStore flashOk = some 2 := by decide +kernel
  have htype : (configLoad wideLong retiredStore flashOk factoryCfg).1.cfg.mixType = 1 := by
    decide +kernel
  refine ⟨hstored, htype, ?_⟩
  rintro ⟨-, -, hpromise⟩
  have hlinear := hpromise 2 hstored (by decide +kernel) (by decide +kernel)
  rw [htype] at hlinear
  exact mixers_differ hlinear

end KartFirmware

import KartFirmware.Binary32
import KartFirmware.ConfigParams

/-!
# Passes over the parameter table

`setDefaults`, `clampAll` and the loading loop each make one turn for every entry
of `PARAMS`.  A turn touches the member of its own entry only (`Turn`), and no
two entries name the same member, so a whole pass does to each member what that
member's own turn does (`foldl_sameAt`).

At `float` this decides when a clamped configuration is in range: `std::clamp`
lets a NaN through, and nothing else (`clampAll_validated_iff`).
-/

set_option linter.unusedSectionVars false

namespace KartFirmware

/-! ### One member at a time -/

section Fold

variable {F : Type} [CFloat F]

def ParamEntry.field : ParamEntry F → FloatField ⊕ IntField
  | .float _ _ _ field => .inl field
  | .int _ _ _ _ field => .inr field

def KartConfig.SameAt (x : FloatField ⊕ IntField) (c c' : KartConfig F) : Prop :=
  match x with
  | .inl f => c.getF f = c'.getF f
  | .inr i => c.getI i = c'.getI i

theorem KartConfig.SameAt.refl (x : FloatField ⊕ IntField) (c : KartConfig F) : SameAt x c c := by
  cases x <;> rfl

theorem KartConfig.SameAt.trans {x : FloatField ⊕ IntField} {a b c : KartConfig F}
    (h : SameAt x a b) (h' : SameAt x b c) : SameAt x a c := by
  cases x with
  | inl f => exact Eq.trans h h'
  | inr i => exact Eq.trans h h'

theorem KartConfig.SameAt.symm {x : FloatField ⊕ IntField} {a b : KartConfig F}
    (h : SameAt x a b) : SameAt x b a := by
  cases x with
  | inl f => exact Eq.symm h
  | inr i => exact Eq.symm h

open KartConfig

theorem cfgSet_frame (lround : F → Int) (c : KartConfig F) (p : ParamDesc F) (v : F)
    {x : FloatField ⊕ IntField} (h : x ≠ p.entry.field) : SameAt x (cfgSet lround c p v) c := by
  unfold cfgSet
  cases he : p.entry with
  | float lo d hi f =>
    rw [he] at h
    cases x with
    | inl g => exact getF_setF_of_ne c (fun heq => h (congrArg Sum.inl heq)) v
    | inr i => exact getI_setF c i f v
  | int t lo d hi i =>
    rw [he] at h
    cases x with
    | inl g => exact getF_setI c g i _
    | inr j => exact getI_setI_of_ne c (fun heq => h (congrArg Sum.inr heq)) _

/-- What `cfgSet` writes depends on the value only. -/
theorem cfgSet_local (lround : F → Int) (c c' : KartConfig F) (p : ParamDesc F) (v : F) :
    SameAt p.entry.field (cfgSet lround c p v) (cfgSet lround c' p v) := by
  unfold cfgSet
  cases p.entry with
  | float lo d hi f => exact (getF_setF_same c f v).trans (getF_setF_same c' f v).symm
  | int t lo d hi i => exact (getI_setI_same c i _).trans (getI_setI_same c' i _).symm

theorem cfgGet_congr {c c' : KartConfig F} {p : ParamDesc F} (h : SameAt p.entry.field c c') :
    cfgGet c p = cfgGet c' p := by
  unfold cfgGet
  cases he : p.entry with
  | float lo d hi f =>
    rw [he] at h
    exact h
  | int t lo d hi i =>
    rw [he] at h
    exact congrArg CFloat.ofInt h

/-- A turn of a pass: it touches the member of its entry only, and what it makes
of that member depends on that member only. -/
structure Turn (turn : KartConfig F → ParamDesc F → KartConfig F) : Prop where
  frame : ∀ c p x, x ≠ p.entry.field → SameAt x (turn c p) c
  sameAt : ∀ c c' p, SameAt p.entry.field c c' → SameAt p.entry.field (turn c p) (turn c' p)

variable {turn : KartConfig F → ParamDesc F → KartConfig F}

theorem foldl_frame (hturn : Turn turn) {x : FloatField ⊕ IntField} {l : List (ParamDesc F)}
    (h : ∀ p ∈ l, x ≠ p.entry.field) (c : KartConfig F) : SameAt x (l.foldl turn c) c := by
  induction l generalizing c with
  | nil => exact SameAt.refl x c
  | cons q t ih =>
    have hq := hturn.frame c q x (h q (List.mem_cons_self ..))
    exact (ih (fun p hp => h p (List.mem_cons_of_mem _ hp)) (turn c q)).trans hq

/-- After a pass over entries with distinct members, each member is what its own
turn makes of it. -/
theorem foldl_sameAt (hturn : Turn turn) {l : List (ParamDesc F)}
    (hnodup : (l.map fun p => p.entry.field).Nodup) {p : ParamDesc F} (hp : p ∈ l)
    (c : KartConfig F) : SameAt p.entry.field (l.foldl turn c) (turn c p) := by
  induction l generalizing c with
  | nil => exact absurd hp List.not_mem_nil
  | cons q t ih =>
    rw [List.map_cons, List.nodup_cons] at hnodup
    have hother : ∀ r ∈ t, q.entry.field ≠ r.entry.field := by
      intro r hr heq
      exact hnodup.1 (heq ▸ List.mem_map_of_mem (f := fun p => p.entry.field) hr)
    rcases List.mem_cons.mp hp with rfl | hpt
    · exact foldl_frame hturn hother (turn c p)
    · have hskip := hturn.frame c q p.entry.field (hother p hpt).symm
      exact (ih hnodup.2 hpt (turn c q)).trans (hturn.sameAt _ _ p hskip)

/-- So a pass over two configurations that agree on a member leaves them so. -/
theorem foldl_congr (hturn : Turn turn) {l : List (ParamDesc F)}
    (hnodup : (l.map fun p => p.entry.field).Nodup) {p : ParamDesc F} (hp : p ∈ l)
    {c c' : KartConfig F} (h : SameAt p.entry.field c c') :
    SameAt p.entry.field (l.foldl turn c) (l.foldl turn c') :=
  ((foldl_sameAt hturn hnodup hp c).trans (hturn.sameAt _ _ p h)).trans
    (foldl_sameAt hturn hnodup hp c').symm

theorem map_field_PARAMS : ((PARAMS : List (ParamDesc F)).map fun p => p.entry.field) =
    [.inl .dutyCapFrac, .inl .thrDeadzone, .inl .turnGain, .inr .mixType, .inl .mixExpoFwd,
      .inl .mixExpoTurn, .inr .accelPctS, .inr .decelPctS, .inr .motInvL, .inr .motInvR,
      .inr .motSwapLr, .inr .armHoldMs, .inr .disarmS, .inr .ledCount, .inr .ledBrightness] := rfl

theorem fields_nodup : ((PARAMS : List (ParamDesc F)).map fun p => p.entry.field).Nodup := by
  rw [map_field_PARAMS]
  decide

theorem names_nodup : ((PARAMS : List (ParamDesc F)).map ParamDesc.name).Nodup := by
  change List.Nodup ["duty_cap", "thr_deadzone", "turn_gain", "mix_type", "mix_expo_fwd",
    "mix_expo_turn", "accel_pct_s", "decel_pct_s", "mot_inv_l", "mot_inv_r", "mot_swap_lr",
    "arm_hold_ms", "disarm_s", "led_count", "led_brightness"]
  decide

theorem inRange_congr {c c' : KartConfig F} {e : ParamEntry F} (h : SameAt e.field c c') :
    e.InRange c ↔ e.InRange c' := by
  cases e with
  | float lo d hi f =>
    have hf : c.getF f = c'.getF f := h
    rw [ParamEntry.InRange, ParamEntry.InRange, hf]
  | int t lo d hi i =>
    have hi : c.getI i = c'.getI i := h
    rw [ParamEntry.InRange, ParamEntry.InRange, hi]

theorem setDefaults_turn (lround : F → Int) :
    Turn fun c p => cfgSet lround c p (cfgDef (F := F) p) :=
  ⟨fun c p _ h => cfgSet_frame lround c p _ h, fun c c' p _ => cfgSet_local lround c c' p _⟩

theorem clampParam_turn (lround : F → Int) : Turn (clampParam lround) := by
  refine ⟨fun c p _ h => cfgSet_frame lround c p _ h, fun c c' p h => ?_⟩
  rw [clampParam, clampParam, cfgGet_congr h]
  exact cfgSet_local lround c c' p _

/-- A pass leaves the configuration in range if and only if every turn does so for
its own entry. -/
theorem foldl_inRange_iff (hturn : Turn turn) (c : KartConfig F) :
    (PARAMS.foldl turn c).InRange ↔ ∀ p ∈ PARAMS, p.entry.InRange (turn c p) :=
  forall₂_congr fun _ hp => inRange_congr (foldl_sameAt hturn fields_nodup hp c)

end Fold

/-! ### Clamping a `float` -/

section Float

open Binary32 KartConfig

/-- `std::lround` on the target, whose `long` has 32 bits.  `unspecified` is what
it returns for NaN, infinities and values that round out of `long`. -/
def lround (unspecified : Float32 → Int) (x : Float32) : Int :=
  if x.isFinite = true ∧ -2147483648 ≤ roundHalfAway (value x) ∧
      roundHalfAway (value x) ≤ 2147483647 then roundHalfAway (value x)
  else unspecified x

theorem stdClamp_mem {x lo hi : Float32} (hx : ¬ x.isNaN) (h : lo ≤ hi) :
    lo ≤ stdClamp x lo hi ∧ stdClamp x lo hi ≤ hi := by
  obtain ⟨hlo, hhi⟩ := not_isNaN_of_le h
  have hself : ∀ {y : Float32}, ¬ y.isNaN → y ≤ y := by
    intro y hy
    by_cases hlt : y < y
    · exact le_of_lt hlt
    · exact le_of_not_lt hy hy hlt
  have hclamp : stdClamp x lo hi = if x < lo then lo else if hi < x then hi else x := rfl
  rw [hclamp]
  split_ifs with hbelow habove
  · exact ⟨hself hlo, h⟩
  · exact ⟨h, hself hhi⟩
  · exact ⟨le_of_not_lt hx hlo hbelow, le_of_not_lt hhi hx habove⟩

/-- Neither comparison of `std::clamp` catches a NaN. -/
theorem stdClamp_of_isNaN {x lo hi : Float32} (hx : x.isNaN) : stdClamp x lo hi = x := by
  have hclamp : stdClamp x lo hi = if x < lo then lo else if hi < x then hi else x := rfl
  rw [hclamp, if_neg (not_lt_of_isNaN (Or.inl hx)), if_neg (not_lt_of_isNaN (Or.inr hx))]

/-- Between the `float` images of two integers `lround` stays between them. -/
theorem lround_mem (unspecified : Float32 → Int) {x a b : Float32} {lo hi : Int}
    (ha : a.isFinite) (hb : b.isFinite) (hlo : value a = lo) (hhi : value b = hi)
    (hmin : -2147483648 ≤ lo) (hmax : hi ≤ 2147483647) (hax : a ≤ x) (hxb : x ≤ b) :
    lo ≤ lround unspecified x ∧ lround unspecified x ≤ hi := by
  have hx := isFinite_of_between ha hb hax hxb
  have hmem : lo ≤ roundHalfAway (value x) ∧ roundHalfAway (value x) ≤ hi := by
    apply roundHalfAway_mem
    · exact hlo ▸ value_le ha hx hax
    · exact hhi ▸ value_le hx hb hxb
  rw [lround, if_pos ⟨hx, by omega, by omega⟩]
  exact hmem

theorem toInt32_of_mem {n : Int} (hmin : -2147483648 ≤ n) (hmax : n ≤ 2147483647) :
    toInt32 n = n := by
  unfold toInt32
  rw [Int.bmod_eq_of_le] <;> omega

/-- What the bounds of an entry must satisfy for clamping to make sense: they are
finite, in order and around the default, and `float` represents integer bounds. -/
def ParamEntry.Sound : ParamEntry Float32 → Prop
  | .float lo d hi _ => lo ≤ hi ∧ lo ≤ d ∧ d ≤ hi ∧ lo.isFinite ∧ hi.isFinite
  | .int _ lo d hi _ =>
    lo ≤ d ∧ d ≤ hi ∧ -2147483648 ≤ lo ∧ hi ≤ 2147483647 ∧
      (CFloat.ofInt lo : Float32) ≤ CFloat.ofInt d ∧
      (CFloat.ofInt d : Float32) ≤ CFloat.ofInt hi ∧
      (CFloat.ofInt lo : Float32) ≤ CFloat.ofInt hi ∧
      (CFloat.ofInt lo : Float32).isFinite ∧ (CFloat.ofInt hi : Float32).isFinite ∧
      value (CFloat.ofInt lo) = lo ∧ value (CFloat.ofInt hi) = hi

instance (e : ParamEntry Float32) : Decidable e.Sound := by
  cases e <;> unfold ParamEntry.Sound <;> infer_instance

/-- Every bound and every default of the table is sound. -/
theorem PARAMS_sound : ∀ p ∈ (PARAMS : List (ParamDesc Float32)), p.entry.Sound := by
  decide +kernel

variable (unspecified : Float32 → Int) (c : KartConfig Float32) {p : ParamDesc Float32}

/-- The turn of `clampAll` for a `float` entry fails on a NaN only. -/
theorem clampParam_float_inRange_iff {lo d hi : Float32} {f : FloatField}
    (he : p.entry = .float lo d hi f) (hsound : p.entry.Sound) :
    p.entry.InRange (clampParam (lround unspecified) c p) ↔ ¬ (c.getF f).isNaN := by
  rw [he] at hsound
  have hturn : (clampParam (lround unspecified) c p).getF f = stdClamp (c.getF f) lo hi := by
    rw [clampParam, cfgSet, cfgGet, cfgMin, cfgMax, he]
    exact getF_setF_same c f _
  rw [he, ParamEntry.InRange, hturn]
  constructor
  · rintro ⟨hlo, -⟩ hnan
    rw [stdClamp_of_isNaN hnan] at hlo
    exact (not_isNaN_of_le hlo).2 hnan
  · intro hnum
    exact stdClamp_mem hnum hsound.1

/-- The turn of `clampAll` for an integer entry never fails. -/
theorem clampParam_int_inRange {t : IntType} {lo d hi : Int} {i : IntField}
    (he : p.entry = .int t lo d hi i) (hsound : p.entry.Sound) :
    p.entry.InRange (clampParam (lround unspecified) c p) := by
  rw [he] at hsound
  obtain ⟨-, -, hmin, hmax, -, -, hord, hflo, hfhi, hvlo, hvhi⟩ := hsound
  have hturn : (clampParam (lround unspecified) c p).getI i =
      toInt32 (lround unspecified
        (stdClamp (CFloat.ofInt (c.getI i)) (CFloat.ofInt lo) (CFloat.ofInt hi))) := by
    rw [clampParam, cfgSet, cfgGet, cfgMin, cfgMax, he]
    exact getI_setI_same c i _
  have hnum : ¬ (CFloat.ofInt (c.getI i) : Float32).isNaN := not_isNaN_ofInt (c.getI i)
  obtain ⟨hbelow, habove⟩ := stdClamp_mem hnum hord
  have hround := lround_mem unspecified hflo hfhi hvlo hvhi hmin hmax hbelow habove
  rw [he, ParamEntry.InRange, hturn, toInt32_of_mem (by omega) (by omega)]
  exact hround

/-- What validation promises: every member within its bounds, and every `float`
member an ordinary number. -/
def KartConfig.Validated (c : KartConfig Float32) : Prop :=
  c.InRange ∧ ∀ f, (c.getF f).isFinite

theorem exists_float_entry (f : FloatField) : ∃ p ∈ (PARAMS : List (ParamDesc Float32)),
    ∃ lo d hi, p.entry = .float lo d hi f := by
  have hfield : ∀ f : FloatField, Sum.inl f ∈
      (PARAMS : List (ParamDesc Float32)).map fun p => p.entry.field := by
    intro f
    rw [map_field_PARAMS]
    cases f <;> simp
  obtain ⟨p, hp, hf⟩ := List.mem_map.mp (hfield f)
  refine ⟨p, hp, ?_⟩
  cases he : p.entry with
  | float lo d hi g =>
    rw [he] at hf
    obtain rfl : g = f := Sum.inl.inj hf
    exact ⟨lo, d, hi, rfl⟩
  | int t lo d hi i =>
    rw [he] at hf
    exact nomatch hf

/-- Being in range rules out the special values. -/
theorem validated_iff_inRange {c : KartConfig Float32} : c.Validated ↔ c.InRange := by
  refine ⟨fun h => h.1, fun h => ⟨h, fun f => ?_⟩⟩
  obtain ⟨p, hp, lo, d, hi, he⟩ := exists_float_entry f
  have hrange := h p hp
  have hsound := PARAMS_sound p hp
  rw [he] at hrange hsound
  exact isFinite_of_between hsound.2.2.2.1 hsound.2.2.2.2 hrange.1 hrange.2

/-- **`clampAll` validates everything but a NaN.** -/
theorem clampAll_validated_iff :
    (c.clampAll (lround unspecified)).Validated ↔
      ∀ p ∈ (PARAMS : List (ParamDesc Float32)), ∀ lo d hi f, p.entry = .float lo d hi f →
        ¬ (c.getF f).isNaN := by
  rw [validated_iff_inRange, KartConfig.clampAll, foldl_inRange_iff (clampParam_turn _)]
  refine forall₂_congr fun p hp => ?_
  have hsound := PARAMS_sound p hp
  cases he : p.entry with
  | float lo d hi f =>
    rw [← he, clampParam_float_inRange_iff unspecified c he hsound]
    constructor
    · intro hnum _ _ _ g hg
      rw [he] at hg
      cases hg
      exact hnum
    · intro hnum
      exact hnum lo d hi f he
  | int t lo d hi i =>
    rw [← he]
    refine iff_of_true (clampParam_int_inRange unspecified c he hsound) ?_
    intro _ _ _ f hf
    rw [he] at hf
    exact nomatch hf

/-- The default of every entry is in range, whatever the members held before. -/
theorem setDefaults_inRange : (c.setDefaults (lround unspecified)).InRange := by
  rw [KartConfig.setDefaults, foldl_inRange_iff (setDefaults_turn _)]
  intro p hp
  have hsound := PARAMS_sound p hp
  cases he : p.entry with
  | float lo d hi f =>
    rw [he] at hsound
    rw [cfgSet, cfgDef, he]
    simp only [ParamEntry.InRange, getF_setF_same]
    exact ⟨hsound.2.1, hsound.2.2.1⟩
  | int t lo d hi i =>
    rw [he] at hsound
    obtain ⟨-, -, hmin, hmax, hlod, hdhi, hord, hflo, hfhi, hvlo, hvhi⟩ := hsound
    have hround := lround_mem unspecified hflo hfhi hvlo hvhi hmin hmax hlod hdhi
    rw [cfgSet, cfgDef, he]
    simp only [ParamEntry.InRange, getI_setI_same]
    rw [toInt32_of_mem (by omega) (by omega)]
    exact hround

end Float

end KartFirmware

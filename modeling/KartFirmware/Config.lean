import KartFirmware.ConfigClamp

/-!
# Loading and changing the configuration

`config.cpp` as far as `g_cfg` goes, and the decoding of `set` requests in
`webserver.cpp`.  The NVS namespace is a map from keys to blobs, in which a
setting is the four bytes of a `float`; what the NVS calls answer is an input
(`NvsResults`).  A `ParamVal` is taken after protobuf decoding, with its value
oneof.

The two ways to a new configuration, `configLoad` and `configUpdate`, both end in
`clampAll`, so each is validated exactly when no `float` setting arrives as a NaN
(`config_validated_iff`).
-/

namespace KartFirmware

open KartConfig

/-! ### The NVS namespace -/

abbrev Blob := List UInt8

/-- The blobs of the namespace `kart`, by key. -/
abbrev Namespace := String → Option Blob

/-- The four bytes of a `float`, least significant first. -/
def encodeFloat (v : Float32) : Blob :=
  [v.toBits.toUInt8, (v.toBits >>> 8).toUInt8, (v.toBits >>> 16).toUInt8,
    (v.toBits >>> 24).toUInt8]

/-- A blob of any other size is no `float`. -/
def decodeFloat : Blob → Option Float32
  | [b0, b1, b2, b3] =>
    some (Float32.ofBits
      (b0.toUInt32 ||| b1.toUInt32 <<< 8 ||| b2.toUInt32 <<< 16 ||| b3.toUInt32 <<< 24))
  | _ => none

def readFloat (ns : Namespace) (key : String) : Option Float32 := (ns key).bind decodeFloat

structure NvsResults where
  opens : Bool
  sets : String → Bool
  commits : Bool

/-- Writes the key only if the stored value differs. -/
def writeFloat (r : NvsResults) (ns : Namespace) (key : String) (value : Float32) : Namespace :=
  match readFloat ns key with
  | some cur =>
    if cur == value then ns
    else if r.sets key then Function.update ns key (some (encodeFloat value)) else ns
  | none => if r.sets key then Function.update ns key (some (encodeFloat value)) else ns

/-! ### The configuration store -/

/-- `g_cfg` and the namespace it is kept in. -/
structure ConfigStore where
  cfg : KartConfig Float32
  nvs : Namespace

variable (unspecified : Float32 → Int)

/-- One turn of the loop of `configLoad`. -/
def loadParam (ns : Namespace) (c : KartConfig Float32) (p : ParamDesc Float32) :
    KartConfig Float32 :=
  match readFloat ns p.name with
  | some v => cfgSet (lround unspecified) c p v
  | none => c

/-- `configLoad`: the new `g_cfg`, and whether anything was stored.  `uninit` is
what the local variable holds before `setDefaults`. -/
def configLoad (s : ConfigStore) (r : NvsResults) (uninit : KartConfig Float32) :
    ConfigStore × Bool :=
  let cfg := uninit.setDefaults (lround unspecified)
  if r.opens then
    let loaded := PARAMS.foldl (loadParam unspecified s.nvs) cfg
    ({ s with cfg := loaded.clampAll (lround unspecified) },
      (PARAMS : List (ParamDesc Float32)).any fun p => (readFloat s.nvs p.name).isSome)
  else ({ s with cfg := cfg }, false)

/-- `configSave`, and whether it was committed. -/
def configSave (s : ConfigStore) (r : NvsResults) : ConfigStore × Bool :=
  if r.opens then
    ({ s with nvs := PARAMS.foldl (fun ns p => writeFloat r ns p.name (cfgGet s.cfg p)) s.nvs },
      r.commits)
  else (s, false)

/-- `configInit`, without the mutexes. -/
def configInit (s : ConfigStore) (load save : NvsResults) (uninit : KartConfig Float32) :
    ConfigStore :=
  let loaded := configLoad unspecified s load uninit
  if loaded.2 then loaded.1
  else
    (configSave { loaded.1 with cfg := loaded.1.cfg.setDefaults (lround unspecified) } save).1

def configUpdate (s : ConfigStore) (r : NvsResults) (cfg : KartConfig Float32) (persist : Bool) :
    ConfigStore :=
  let s := { s with cfg := cfg.clampAll (lround unspecified) }
  if persist then (configSave s r).1 else s

theorem configUpdate_cfg (s : ConfigStore) (r : NvsResults) (cfg : KartConfig Float32)
    (persist : Bool) :
    (configUpdate unspecified s r cfg persist).cfg = cfg.clampAll (lround unspecified) := by
  unfold configUpdate configSave
  split_ifs <;> rfl

/-! ### Requests -/

inductive OneofValue where
  | unset
  | bval (b : Bool)
  | ival (i : Int)
  | fval (f : Float32)

structure ParamVal where
  name : String
  value : OneofValue

def ParamVal.float (pv : ParamVal) : Option Float32 :=
  match pv.value with
  | .unset => none
  | .bval b => some (if b then 1 else 0)
  | .ival i => some (CFloat.ofInt i)
  | .fval f => some f

/-- The lazy draft: a copy of the configuration from the first pair on. -/
structure SetCtx where
  cfg : KartConfig Float32
  touched : Bool

/-- `decSetParam`, with what `configSnapshot` returns. -/
def decSetParam (snapshot : KartConfig Float32) (ctx : SetCtx) (pv : ParamVal) : SetCtx :=
  let ctx := if ctx.touched then ctx else { cfg := snapshot, touched := true }
  match pv.float with
  | none => ctx
  | some val =>
    match PARAMS.find? fun p => p.name == pv.name with
    | some p => { ctx with cfg := cfgSet (lround unspecified) ctx.cfg p val }
    | none => ctx

/-- The draft after a non-empty list of pairs. -/
def draft (snapshot uninit : KartConfig Float32) (pv : ParamVal) (pvs : List ParamVal) :
    KartConfig Float32 :=
  ((pv :: pvs).foldl (decSetParam unspecified snapshot) { cfg := uninit, touched := false }).cfg

/-- The last value that a list of pairs gives to a name. -/
def lastValue (name : String) (pvs : List ParamVal) : Option Float32 :=
  (pvs.filterMap fun pv => if pv.name = name then pv.float else none).getLast?

theorem lastValue_append (name : String) (pvs : List ParamVal) (pv : ParamVal) :
    lastValue name (pvs ++ [pv]) =
      if pv.name = name then pv.float.or (lastValue name pvs) else lastValue name pvs := by
  unfold lastValue
  rw [List.filterMap_append, List.getLast?_append, List.filterMap_cons, List.filterMap_nil]
  by_cases hname : pv.name = name
  · rw [if_pos hname, if_pos hname]
    cases pv.float <;> rfl
  · rw [if_neg hname, if_neg hname]
    rfl

/-- What one pair does to a draft that exists. -/
def setPair (c : KartConfig Float32) (pv : ParamVal) : KartConfig Float32 :=
  match pv.float with
  | none => c
  | some val =>
    match PARAMS.find? fun p => p.name == pv.name with
    | some p => cfgSet (lround unspecified) c p val
    | none => c

theorem decSetParam_touched (snapshot c : KartConfig Float32) (pv : ParamVal) :
    decSetParam unspecified snapshot { cfg := c, touched := true } pv =
      { cfg := setPair unspecified c pv, touched := true } := by
  unfold decSetParam setPair
  cases pv.float with
  | none => rfl
  | some val =>
    cases ((PARAMS : List (ParamDesc Float32)).find? fun p => p.name == pv.name) <;> rfl

theorem draft_eq_foldl (snapshot uninit : KartConfig Float32) (pv : ParamVal)
    (pvs : List ParamVal) :
    draft unspecified snapshot uninit pv pvs =
      (pv :: pvs).foldl (setPair unspecified) snapshot := by
  have htouched : ∀ (l : List ParamVal) (c : KartConfig Float32),
      l.foldl (decSetParam unspecified snapshot) { cfg := c, touched := true } =
        { cfg := l.foldl (setPair unspecified) c, touched := true } := by
    intro l
    induction l with
    | nil => intro c; rfl
    | cons q l ih =>
      intro c
      rw [List.foldl_cons, decSetParam_touched, ih, List.foldl_cons]
  have hfirst : decSetParam unspecified snapshot { cfg := uninit, touched := false } pv =
      decSetParam unspecified snapshot { cfg := snapshot, touched := true } pv := rfl
  rw [draft, List.foldl_cons, hfirst, decSetParam_touched, htouched, List.foldl_cons]

/-- A pair with the name of an entry sets that entry. -/
theorem setPair_of_name {p : ParamDesc Float32} (hp : p ∈ (PARAMS : List (ParamDesc Float32)))
    (c : KartConfig Float32) {pv : ParamVal} (hname : pv.name = p.name) {v : Float32}
    (hv : pv.float = some v) : setPair unspecified c pv = cfgSet (lround unspecified) c p v := by
  have hfind : PARAMS.find? (fun q : ParamDesc Float32 => q.name == pv.name) = some p := by
    cases hcase : PARAMS.find? fun q : ParamDesc Float32 => q.name == pv.name with
    | none => exact absurd hname.symm (by simpa using List.find?_eq_none.mp hcase p hp)
    | some q =>
      have hq : q ∈ (PARAMS : List (ParamDesc Float32)) := List.mem_of_find?_eq_some hcase
      have hqname : q.name = pv.name := by simpa using List.find?_some hcase
      rw [List.inj_on_of_nodup_map names_nodup hq hp (hqname.trans hname)]
  unfold setPair
  rw [hv, hfind]

/-- A pair with another name leaves the member of an entry alone. -/
theorem setPair_frame {p : ParamDesc Float32} (hp : p ∈ (PARAMS : List (ParamDesc Float32)))
    (c : KartConfig Float32) {pv : ParamVal} (hname : pv.name ≠ p.name) :
    SameAt p.entry.field (setPair unspecified c pv) c := by
  unfold setPair
  cases pv.float with
  | none => exact SameAt.refl _ c
  | some v =>
    cases hfind : PARAMS.find? fun q : ParamDesc Float32 => q.name == pv.name with
    | none => exact SameAt.refl _ c
    | some q =>
      have hq : q ∈ (PARAMS : List (ParamDesc Float32)) := List.mem_of_find?_eq_some hfind
      have hqname : q.name = pv.name := by simpa using List.find?_some hfind
      refine cfgSet_frame (lround unspecified) c q v fun hfield => hname ?_
      rw [List.inj_on_of_nodup_map fields_nodup hp hq hfield, hqname]

/-- A pair reaches the member of the entry with its name, and no other. -/
theorem setPair_getF {p : ParamDesc Float32} (hp : p ∈ (PARAMS : List (ParamDesc Float32)))
    {lo d hi : Float32} {f : FloatField} (he : p.entry = .float lo d hi f)
    (c : KartConfig Float32) (pv : ParamVal) :
    (setPair unspecified c pv).getF f =
      if pv.name = p.name then pv.float.getD (c.getF f) else c.getF f := by
  by_cases hname : pv.name = p.name
  · rw [if_pos hname]
    cases hval : pv.float with
    | none =>
      rw [setPair, hval]
      rfl
    | some v =>
      rw [setPair_of_name unspecified hp c hname hval, cfgSet, he]
      exact getF_setF_same c f v
  · have hframe := setPair_frame unspecified hp c hname
    rw [he] at hframe
    rw [if_neg hname]
    exact hframe

/-- A `float` member of the draft: the last value given to its name, or the
previous one. -/
theorem draft_getF {p : ParamDesc Float32} (hp : p ∈ (PARAMS : List (ParamDesc Float32)))
    {lo d hi : Float32} {f : FloatField} (he : p.entry = .float lo d hi f)
    (snapshot uninit : KartConfig Float32) (pv : ParamVal) (pvs : List ParamVal) :
    (draft unspecified snapshot uninit pv pvs).getF f =
      (lastValue p.name (pv :: pvs)).getD (snapshot.getF f) := by
  rw [draft_eq_foldl]
  generalize pv :: pvs = l
  induction l using List.reverseRecOn with
  | nil => rfl
  | append_singleton l q ih =>
    rw [List.foldl_append, List.foldl_cons, List.foldl_nil, setPair_getF unspecified hp he,
      lastValue_append, ih]
    split_ifs
    · cases q.float <;> rfl
    · rfl

/-! ### Loading -/

theorem loadParam_turn (ns : Namespace) : Turn (loadParam unspecified ns) := by
  constructor
  · intro c p x hx
    unfold loadParam
    cases readFloat ns p.name with
    | none => exact SameAt.refl x c
    | some v => exact cfgSet_frame (lround unspecified) c p v hx
  · intro c c' p h
    unfold loadParam
    cases readFloat ns p.name with
    | none => exact h
    | some v => exact cfgSet_local (lround unspecified) c c' p v

theorem loaded_getF {p : ParamDesc Float32} (hp : p ∈ (PARAMS : List (ParamDesc Float32)))
    {lo d hi : Float32} {f : FloatField} (he : p.entry = .float lo d hi f) (ns : Namespace)
    (c : KartConfig Float32) :
    (PARAMS.foldl (loadParam unspecified ns) c).getF f =
      (readFloat ns p.name).getD (c.getF f) := by
  have hpass := foldl_sameAt (loadParam_turn unspecified ns) fields_nodup hp c
  rw [he] at hpass
  refine Eq.trans hpass ?_
  unfold loadParam
  cases readFloat ns p.name with
  | none => rfl
  | some v => simp only [cfgSet, he, getF_setF_same, Option.getD_some]

theorem default_not_isNaN {p : ParamDesc Float32}
    (hp : p ∈ (PARAMS : List (ParamDesc Float32))) {lo d hi : Float32} {f : FloatField}
    (he : p.entry = .float lo d hi f) (c : KartConfig Float32) :
    ¬ ((c.setDefaults (lround unspecified)).getF f).isNaN := by
  have hrange := setDefaults_inRange unspecified c p hp
  rw [he] at hrange
  exact (Binary32.not_isNaN_of_le hrange.1).2

/-! ### Validation -/

/-- **When the configuration is validated.**  A request leaves it so exactly when
no `float` setting ends up with a NaN as the last value given to it (or as the
value it had); loading does so exactly when no stored `float` setting is a NaN. -/
theorem config_validated_iff :
    (∀ (s : ConfigStore) (r : NvsResults) (snapshot uninit : KartConfig Float32) (pv : ParamVal)
        (pvs : List ParamVal) (persist : Bool),
      (configUpdate unspecified s r (draft unspecified snapshot uninit pv pvs) persist).cfg.Validated
        ↔ ∀ p ∈ (PARAMS : List (ParamDesc Float32)), ∀ lo d hi f, p.entry = .float lo d hi f →
          ¬ ((lastValue p.name (pv :: pvs)).getD (snapshot.getF f)).isNaN) ∧
      ∀ (s : ConfigStore) (r : NvsResults) (uninit : KartConfig Float32),
        (configLoad unspecified s r uninit).1.cfg.Validated ↔
          (r.opens = true → ∀ p ∈ (PARAMS : List (ParamDesc Float32)), ∀ lo d hi f,
            p.entry = .float lo d hi f → ∀ v, readFloat s.nvs p.name = some v → ¬ v.isNaN) := by
  constructor
  · intro s r snapshot uninit pv pvs persist
    rw [configUpdate_cfg, clampAll_validated_iff]
    refine forall₂_congr fun p hp => forall₄_congr fun lo d hi f => forall_congr' fun he => ?_
    rw [draft_getF unspecified hp he]
  · intro s r uninit
    unfold configLoad
    cases r.opens with
    | false =>
      refine iff_of_true ?_ (fun hopen => nomatch hopen)
      exact validated_iff_inRange.mpr (setDefaults_inRange unspecified uninit)
    | true =>
      rw [if_pos rfl, clampAll_validated_iff, forall_prop_of_true rfl]
      refine forall₂_congr fun p hp => forall₄_congr fun lo d hi f => forall_congr' fun he => ?_
      rw [loaded_getF unspecified hp he]
      cases readFloat s.nvs p.name with
      | none =>
        exact iff_of_true (default_not_isNaN unspecified hp he uninit) (fun v hv => nomatch hv)
      | some v =>
        constructor
        · rintro hnum w ⟨⟩
          exact hnum
        · intro hnum
          exact hnum v rfl

/-- The settings of a kart that was never configured. -/
def factoryCfg : KartConfig Float32 where
  dutyCapFrac := 1
  thrDeadzone := 0.06
  turnGain := 1
  mixType := 0
  mixExpoFwd := 0.5
  mixExpoTurn := 0.6
  accelPctS := 200
  decelPctS := 100
  motInvL := 0
  motInvR := 0
  motSwapLr := 0
  armHoldMs := 1000
  disarmS := 30
  ledCount := 10
  ledBrightness := 64

/-- A quiet NaN stored under `duty_cap`, and nothing else. -/
def nanStore : ConfigStore where
  cfg := factoryCfg
  nvs key := if key = "duty_cap" then some [0x00, 0x00, 0xC0, 0x7F] else none

/-- One pair `duty_cap` = NaN on factory settings, and one NaN blob in the NVS:
`clampAll` runs on both ways, and both ways `duty_cap_frac` is a NaN after it. -/
theorem nan_settings_not_validated :
    factoryCfg.Validated ∧
      ¬ (configUpdate (fun _ => 0) { cfg := factoryCfg, nvs := fun _ => none }
          { opens := true, sets := fun _ => true, commits := true }
          (draft (fun _ => 0) factoryCfg factoryCfg
            { name := "duty_cap", value := .fval (Float32.ofBits 0x7FC00000) } [])
          true).cfg.Validated ∧
      ¬ (configLoad (fun _ => 0) nanStore
          { opens := true, sets := fun _ => true, commits := true } factoryCfg).1.cfg.Validated := by
  simp only [validated_iff_inRange]
  refine ⟨?_, ?_, ?_⟩ <;> decide +kernel

end KartFirmware

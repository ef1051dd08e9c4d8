import KartFirmware.LittleEndian
import KartFirmware.Binary32Eq
import KartFirmware.Saturation

/-!
# The two external forms of the configuration

What is stored in the NVS and what is sent to the page, and the way back from each.
The reply with the values is decoded to exactly the configuration it was made of,
and so are the stored floats of a save, but for the sign of a zero: `writeFloat`
leaves a stored value that compares equal, so a zero keeps the sign it was stored
with (`config_forms_lossless`).
-/

namespace KartFirmware

open Binary32 KartConfig

/-! ### One float as a blob -/

theorem decode_encodeFloat (v : Float32) : decodeFloat (encodeFloat v) = some v := by
  have hbytes := LittleEndian.bytes_or v.toBits
  have hback := Float32.ofBits_toBits v
  rw [← hbytes] at hback
  exact congrArg some hback

/-! ### The reply with the values -/

/-- `static_cast<int>`: the fraction is dropped.  Undefined in C for a value that no
`int` holds. -/
def castInt (v : Float32) : Int := if 0 ≤ value v then ⌊value v⌋ else ⌈value v⌉

def iround (v : Float32) : Int := castInt (if v < 0 then v - 0.5 else v + 0.5)

/-- `PV_ONEOF`: the value, typed as the parameter is. -/
def ParamEntry.oneof (e : ParamEntry Float32) (v : Float32) : OneofValue :=
  match e with
  | .int .bool _ _ _ _ => .bval (!(v == 0))
  | .int .int _ _ _ _ => .ival (iround v)
  | .float _ _ _ _ => .fval v

/-- The name buffer of a `ParamVal` holds 15 characters. -/
def pvName (name : String) : String := String.ofList (name.toList.take 15)

/-- `encParamVals`: the pairs of the reply of `buildValsPb`. -/
def encParamVals (c : KartConfig Float32) : List ParamVal :=
  PARAMS.map fun p => { name := pvName p.name, value := p.entry.oneof (cfgGet c p) }

theorem names_fit : ∀ p ∈ (PARAMS : List (ParamDesc Float32)), pvName p.name = p.name := by
  decide +kernel

/-- What the table needs for its integers to survive the typing: a Boolean is 0 or 1, and
the others are not negative and have less than 22 bits. -/
def ParamEntry.Typed : ParamEntry Float32 → Prop
  | .float _ _ _ _ => True
  | .int .bool lo _ hi _ => lo = 0 ∧ hi = 1
  | .int .int lo _ hi _ => 0 ≤ lo ∧ hi < 2 ^ 22

instance : (e : ParamEntry Float32) → Decidable e.Typed
  | .float _ _ _ _ => instDecidableTrue
  | .int .bool _ _ _ _ => instDecidableAnd
  | .int .int _ _ _ _ => instDecidableAnd

theorem PARAMS_typed : ∀ p ∈ (PARAMS : List (ParamDesc Float32)), p.entry.Typed := by
  decide +kernel

theorem lround_ofInt (unspecified : Float32 → Int) {n : Int} (h : n.natAbs < 2 ^ 24) :
    lround unspecified (ofInt n) = n := by
  obtain ⟨hfinite, hvalue⟩ := value_ofInt h
  have hround : roundHalfAway (value (ofInt n)) = n := by rw [hvalue, roundHalfAway_intCast]
  rw [lround_of_fits unspecified hfinite (by omega) (by omega), hround]

/-- Zero, and the values of a bit. -/
theorem bit_values : iround (ofInt 0) = 0 ∧ ((0 : Float32).isFinite ∧ value 0 = 0) ∧
    ∀ b ∈ [0, 1], (if !(ofInt b == 0) then (1 : Float32) else 0) = ofInt b := by
  decide +kernel

theorem iround_ofInt {n : Int} (hlow : 0 ≤ n) (hhigh : n < 2 ^ 22) : iround (ofInt n) = n := by
  rcases hlow.eq_or_lt with rfl | hpos
  · exact bit_values.1
  · obtain ⟨-, ⟨hzeroFinite, hzero⟩, -⟩ := bit_values
    have hvalue := (value_ofInt (n := n) (by omega)).2
    have hnotneg : ¬ ofInt n < 0 := by
      intro hneg
      have hle := value_le (value_ofInt (n := n) (by omega)).1 hzeroFinite (le_of_lt hneg)
      have hcast : (0 : ℚ) < n := by exact_mod_cast hpos
      rw [hvalue, hzero] at hle
      linarith
    have hnonneg : (0 : ℚ) ≤ n + 1 / 2 := by
      have hcast : (0 : ℚ) < n := by exact_mod_cast hpos
      linarith
    rw [iround, if_neg hnotneg, castInt, value_ofInt_add_half hpos hhigh, if_pos hnonneg]
    rw [Int.floor_intCast_add]
    norm_num

section Lossless

variable (unspecified : Float32 → Int)

/-! ### A configuration in range -/

/-- Every member has an entry. -/
theorem exists_entry (x : FloatField ⊕ IntField) :
    ∃ p ∈ (PARAMS : List (ParamDesc Float32)), p.entry.field = x := by
  have hx : x ∈ (PARAMS : List (ParamDesc Float32)).map fun p => p.entry.field := by
    rw [map_field_PARAMS]
    rcases x with f | i
    · cases f <;> simp
    · cases i <;> simp
  exact List.mem_map.mp hx

/-- Configurations that agree on every entry of the table are equal. -/
theorem eq_of_sameAt {c c' : KartConfig Float32}
    (h : ∀ p ∈ (PARAMS : List (ParamDesc Float32)), SameAt p.entry.field c c') : c = c' := by
  have hfield : ∀ x : FloatField ⊕ IntField, SameAt x c c' := by
    intro x
    obtain ⟨p, hp, rfl⟩ := exists_entry x
    exact h p hp
  obtain ⟨⟩ := c
  obtain ⟨⟩ := c'
  have h1 := hfield (.inl .dutyCapFrac)
  have h2 := hfield (.inl .thrDeadzone)
  have h3 := hfield (.inl .turnGain)
  have h4 := hfield (.inr .mixType)
  have h5 := hfield (.inl .mixExpoFwd)
  have h6 := hfield (.inl .mixExpoTurn)
  have h7 := hfield (.inr .accelPctS)
  have h8 := hfield (.inr .decelPctS)
  have h9 := hfield (.inr .motInvL)
  have h10 := hfield (.inr .motInvR)
  have h11 := hfield (.inr .motSwapLr)
  have h12 := hfield (.inr .armHoldMs)
  have h13 := hfield (.inr .disarmS)
  have h14 := hfield (.inr .ledCount)
  have h15 := hfield (.inr .ledBrightness)
  simp only [SameAt, getF, getI] at h1 h2 h3 h4 h5 h6 h7 h8 h9 h10 h11 h12 h13 h14 h15
  subst h1 h2 h3 h4 h5 h6 h7 h8 h9 h10 h11 h12 h13 h14 h15
  rfl

theorem stdClamp_of_mem {x lo hi : Float32} (hlo : lo ≤ x) (hhi : x ≤ hi) :
    stdClamp x lo hi = x := by
  have hclamp : stdClamp x lo hi = if x < lo then lo else if hi < x then hi else x := rfl
  rw [hclamp, if_neg (not_lt_of_le hlo), if_neg (not_lt_of_le hhi)]

/-- An integer entry in range has less than 24 bits. -/
theorem natAbs_lt_of_inRange {c : KartConfig Float32} {p : ParamDesc Float32}
    (hp : p ∈ (PARAMS : List (ParamDesc Float32))) {t : IntType} {lo d hi : Int} {i : IntField}
    (he : p.entry = .int t lo d hi i) (h : p.entry.InRange c) :
    lo ≤ c.getI i ∧ c.getI i ≤ hi ∧ (c.getI i).natAbs < 2 ^ 24 := by
  have hnarrow := PARAMS_narrow p hp
  rw [he] at hnarrow h
  obtain ⟨hlo, hlohi, hhi⟩ := hnarrow
  obtain ⟨hlow, hhigh⟩ := h
  exact ⟨hlow, hhigh, by omega⟩

/-- `clampAll` is the identity on configurations in range. -/
theorem clampAll_of_inRange {c : KartConfig Float32} (h : c.InRange) :
    c.clampAll (lround unspecified) = c := by
  refine eq_of_sameAt fun p hp => ?_
  have hpass := foldl_sameAt (clampParam_turn (F := Float32) (lround unspecified)) fields_nodup hp c
  have hrange := h p hp
  cases he : p.entry with
  | float lo d hi f =>
    rw [he] at hpass hrange
    refine Eq.trans hpass ?_
    rw [clampParam_getF unspecified he, stdClamp_of_mem hrange.1 hrange.2]
  | int t lo d hi i =>
    obtain ⟨hlow, hhigh, habs⟩ := natAbs_lt_of_inRange hp he hrange
    rw [he] at hpass
    refine Eq.trans hpass ?_
    rw [clampParam_getI unspecified he hp (by omega) (by omega)]
    omega

/-! ### Sending the reply back -/

/-- The value that a pair of the reply is decoded to. -/
def replyValue (c : KartConfig Float32) (p : ParamDesc Float32) : Float32 :=
  ({ name := p.name, value := p.entry.oneof (cfgGet c p) } : ParamVal).float.getD 0

theorem oneof_float (c : KartConfig Float32) (p : ParamDesc Float32) (name : String) :
    ({ name := name, value := p.entry.oneof (cfgGet c p) } : ParamVal).float =
      some (replyValue c p) := by
  unfold replyValue ParamEntry.oneof
  cases p.entry with
  | float lo d hi f => rfl
  | int t lo d hi i => cases t <;> rfl

/-- A pair of the reply sets its own entry to the value it was made of. -/
theorem cfgSet_replyValue {c : KartConfig Float32} (h : c.InRange) {p : ParamDesc Float32}
    (hp : p ∈ (PARAMS : List (ParamDesc Float32))) (snapshot : KartConfig Float32) :
    SameAt p.entry.field (cfgSet (lround unspecified) snapshot p (replyValue c p)) c := by
  have hrange := h p hp
  have htyped := PARAMS_typed p hp
  cases he : p.entry with
  | float lo d hi f =>
    have hvalue : replyValue c p = c.getF f := by
      rw [replyValue, cfgGet, he]
      rfl
    rw [hvalue, cfgSet, he]
    exact getF_setF_same snapshot f _
  | int t lo d hi i =>
    obtain ⟨hlow, hhigh, habs⟩ := natAbs_lt_of_inRange hp he hrange
    rw [he] at htyped
    have hvalue : replyValue c p = ofInt (c.getI i) := by
      have hget : cfgGet c p = ofInt (c.getI i) := by
        rw [cfgGet, he]
        rfl
      cases t with
      | bool =>
        obtain ⟨rfl, rfl⟩ := htyped
        rw [replyValue, hget, he]
        have hbit : c.getI i ∈ [0, 1] := by
          simp only [List.mem_cons, List.not_mem_nil, or_false]
          omega
        exact bit_values.2.2 _ hbit
      | int =>
        have hround : iround (ofInt (c.getI i)) = c.getI i :=
          iround_ofInt (htyped.1.trans hlow) (lt_of_le_of_lt hhigh htyped.2)
        rw [replyValue, hget, he]
        exact congrArg ofInt hround
    rw [hvalue, cfgSet, he]
    change (snapshot.setI i (toInt32 (lround unspecified (ofInt (c.getI i))))).getI i = c.getI i
    rw [lround_ofInt unspecified habs, toInt32_of_mem (by omega) (by omega), getI_setI_same]

theorem encParamVals_ne_nil (c : KartConfig Float32) : encParamVals c ≠ [] := by
  rw [encParamVals, ne_eq, List.map_eq_nil_iff]
  exact List.cons_ne_nil _ _

theorem foldl_setPair_reply {c : KartConfig Float32} (snapshot : KartConfig Float32) :
    (encParamVals c).foldl (setPair unspecified) snapshot =
      PARAMS.foldl (fun d p => cfgSet (lround unspecified) d p (replyValue c p)) snapshot := by
  rw [encParamVals, List.foldl_map]
  refine List.foldl_ext _ _ _ fun d p hp => ?_
  exact setPair_of_name unspecified hp d (names_fit p hp) (oneof_float c p _)

/-- The reply of a configuration in range, sent back, is that configuration. -/
theorem draft_reply {c : KartConfig Float32} (h : c.InRange) (snapshot : KartConfig Float32) :
    (encParamVals c).foldl (setPair unspecified) snapshot = c := by
  rw [foldl_setPair_reply]
  refine eq_of_sameAt fun p hp => ?_
  have hturn : Turn fun d q => cfgSet (lround unspecified) d q (replyValue c q) :=
    ⟨fun d q _ hx => cfgSet_frame (lround unspecified) d q _ hx,
      fun d d' q _ => cfgSet_local (lround unspecified) d d' q _⟩
  exact (foldl_sameAt hturn fields_nodup hp snapshot).trans
    (cfgSet_replyValue unspecified h hp snapshot)

/-! ### Saving and loading -/

section Save

variable (r : NvsResults) (c : KartConfig Float32)

/-- One turn of the loop of `configSave`. -/
def saveParam (ns : Namespace) (p : ParamDesc Float32) : Namespace :=
  writeFloat r ns p.name (cfgGet c p)

theorem writeFloat_frame {ns : Namespace} {key other : String} (v : Float32) (h : other ≠ key) :
    writeFloat r ns key v other = ns other := by
  unfold writeFloat
  cases readFloat ns key <;> dsimp only <;> split_ifs <;>
    first | rfl | exact Function.update_of_ne h _ _

/-- A write that fails leaves its key alone, too. -/
theorem writeFloat_kept {ns : Namespace} {key other : String} (v : Float32)
    (h : r.sets other = true → other ≠ key) : writeFloat r ns key v other = ns other := by
  by_cases hkey : other = key
  · subst hkey
    have hfails : ¬ r.sets other = true := fun hsets => h hsets rfl
    unfold writeFloat
    cases readFloat ns other <;> dsimp only <;> split_ifs <;> rfl
  · exact writeFloat_frame r v hkey

theorem writeFloat_congr {ns ns' : Namespace} {key : String} (v : Float32) (h : ns key = ns' key) :
    writeFloat r ns key v key = writeFloat r ns' key v key := by
  have hread : readFloat ns key = readFloat ns' key := by rw [readFloat, readFloat, h]
  unfold writeFloat
  rw [hread]
  cases readFloat ns' key <;> dsimp only <;> split_ifs <;> first | exact h | simp

/-- A key that no successful write is for keeps its content. -/
theorem foldl_saveParam_kept {l : List (ParamDesc Float32)} {key : String}
    (hkey : ∀ p ∈ l, r.sets key = true → key ≠ p.name) (ns : Namespace) :
    (l.foldl (saveParam r c) ns) key = ns key := by
  induction l generalizing ns with
  | nil => rfl
  | cons p l ih =>
    rw [List.foldl_cons, ih fun q hq => hkey q (List.mem_cons_of_mem p hq)]
    exact writeFloat_kept r _ (hkey p (List.mem_cons_self ..))

/-- After a save each key holds what its own turn leaves in it. -/
theorem foldl_saveParam {l : List (ParamDesc Float32)} (hnodup : (l.map ParamDesc.name).Nodup)
    {p : ParamDesc Float32} (hp : p ∈ l) (ns : Namespace) :
    (l.foldl (saveParam r c) ns) p.name = saveParam r c ns p p.name := by
  induction l generalizing ns with
  | nil => exact absurd hp List.not_mem_nil
  | cons q t ih =>
    rw [List.map_cons, List.nodup_cons] at hnodup
    rw [List.foldl_cons]
    rcases List.mem_cons.mp hp with rfl | hpt
    · refine foldl_saveParam_kept r c (fun q' hq' _ heq => hnodup.1 ?_) _
      exact heq ▸ List.mem_map_of_mem hq'
    · rw [ih hnodup.2 hpt]
      refine writeFloat_congr r _ (writeFloat_frame r _ ?_)
      exact fun heq => hnodup.1 (heq ▸ List.mem_map_of_mem hpt)

theorem configSave_eq (s : ConfigStore) (hopens : r.opens = true) :
    (configSave s r).1 = { s with nvs := PARAMS.foldl (saveParam r s.cfg) s.nvs } := by
  unfold configSave saveParam
  simp only [hopens, if_true]

/-- A persisted update saves the clamped configuration if the namespace opens. -/
theorem configUpdate_nvs (s : ConfigStore) :
    (configUpdate unspecified s r c true).nvs =
      if r.opens then PARAMS.foldl (saveParam r (c.clampAll (lround unspecified))) s.nvs
      else s.nvs := by
  unfold configUpdate
  rw [if_pos rfl]
  split_ifs with hopens
  · rw [configSave_eq r _ hopens]
  · rw [configSave, if_neg hopens]

/-- What a key holds after a write that succeeds compares equal to the value. -/
theorem readFloat_writeFloat (ns : Namespace) (key : String) (v : Float32)
    (hsets : r.sets key = true) :
    ∃ w, readFloat (writeFloat r ns key v) key = some w ∧ (w = v ∨ (w == v) = true) := by
  have hwrite : readFloat (Function.update ns key (some (encodeFloat v))) key = some v := by
    rw [readFloat, Function.update_self]
    exact decode_encodeFloat v
  unfold writeFloat
  cases hread : readFloat ns key with
  | none =>
    simp only [if_pos hsets]
    exact ⟨v, hwrite, Or.inl rfl⟩
  | some cur =>
    dsimp only
    split_ifs with hsame
    · exact ⟨cur, hread, Or.inr hsame⟩
    · exact ⟨v, hwrite, Or.inl rfl⟩

end Save

theorem cfgGet_getF {c : KartConfig Float32} {p : ParamDesc Float32} {f : FloatField}
    (h : p.entry.field = .inl f) : cfgGet c p = c.getF f := by
  cases he : p.entry with
  | float lo d hi g =>
    rw [he] at h
    obtain rfl : g = f := Sum.inl.inj h
    rw [cfgGet, he]
  | int t lo d hi i =>
    rw [he] at h
    exact absurd h Sum.inr_ne_inl

/-- What is loaded after a save: the integers exactly, and each float exactly or as
another zero. -/
structure Restored (c c' : KartConfig Float32) : Prop where
  ints : ∀ i, c'.getI i = c.getI i
  floats : ∀ f, c'.getF f = c.getF f ∨ (c'.getF f == 0) = true ∧ (c.getF f == 0) = true

/-- What one stored entry is loaded as, when the blob compares equal to a value in range. -/
theorem load_entry {c : KartConfig Float32} (h : c.InRange) {p : ParamDesc Float32}
    (hp : p ∈ (PARAMS : List (ParamDesc Float32))) {s : ConfigStore} {r : NvsResults}
    (hopens : r.opens = true) {w : Float32} (hread : readFloat s.nvs p.name = some w)
    (hw : w = cfgGet c p ∨ (w == cfgGet c p) = true) (uninit : KartConfig Float32) :
    match p.entry.field with
    | .inl f => ((configLoad unspecified s r uninit).1.cfg.getF f = w)
    | .inr i => (configLoad unspecified s r uninit).1.cfg.getI i = c.getI i := by
  have hload := configLoad_sameAt unspecified hp s r uninit hopens
  rw [loadParam, hread] at hload
  have hrange := h p hp
  cases he : p.entry with
  | float lo d hi f =>
    rw [he] at hrange hload
    have hget : cfgGet c p = c.getF f := by rw [cfgGet, he]
    rw [hget] at hw
    have hmem : lo ≤ w ∧ w ≤ hi := by
      rcases hw with rfl | heq
      · exact hrange
      · exact ⟨(le_congr_right heq lo).mpr hrange.1, (le_congr_left heq hi).mpr hrange.2⟩
    refine Eq.trans hload ?_
    rw [clampAll_cfgSet_getF unspecified _ hp he, stdClamp_of_mem hmem.1 hmem.2]
  | int t lo d hi i =>
    obtain ⟨hlow, hhigh, habs⟩ := natAbs_lt_of_inRange hp he hrange
    rw [he] at hload
    have hget : cfgGet c p = ofInt (c.getI i) := by
      rw [cfgGet, he]
      rfl
    rw [hget] at hw
    obtain ⟨hfinite, hvalue⟩ := value_ofInt habs
    have hwvalue : w.isFinite ∧ value w = c.getI i := by
      rcases hw with rfl | heq
      · exact ⟨hfinite, hvalue⟩
      · exact ⟨isFinite_of_beq heq hfinite, (value_eq_of_beq heq).trans hvalue⟩
    have hround : roundHalfAway (value w) = c.getI i := by
      rw [hwvalue.2, roundHalfAway_intCast]
    refine Eq.trans hload ?_
    rw [clampAll_cfgSet_getI unspecified _ hp he,
      lround_of_fits unspecified hwvalue.1 (by omega) (by omega), hround,
      toInt32_of_mem (by omega) (by omega)]
    omega

/-- A save whose calls succeed, loaded again. -/
theorem load_save {c : KartConfig Float32} (h : c.InRange) (ns : Namespace) {r r' : NvsResults}
    (hopens : r.opens = true) (hsets : ∀ key, r.sets key = true) (hopens' : r'.opens = true)
    (uninit : KartConfig Float32) :
    Restored c
      (configLoad unspecified (configSave { cfg := c, nvs := ns } r).1 r' uninit).1.cfg := by
  have hsave := configSave_eq r { cfg := c, nvs := ns } hopens
  have hstored : ∀ p ∈ (PARAMS : List (ParamDesc Float32)),
      ∃ w, readFloat (PARAMS.foldl (saveParam r c) ns) p.name = some w ∧
        (w = cfgGet c p ∨ (w == cfgGet c p) = true) := by
    intro p hp
    rw [readFloat, foldl_saveParam r c names_nodup hp]
    exact readFloat_writeFloat r ns p.name (cfgGet c p) (hsets p.name)
  rw [hsave]
  generalize PARAMS.foldl (saveParam r c) ns = stored at hstored
  constructor
  · intro i
    obtain ⟨p, hp, hfield⟩ := exists_entry (.inr i)
    obtain ⟨w, hread, hw⟩ := hstored p hp
    have hload := load_entry unspecified h hp (s := { cfg := c, nvs := stored }) hopens' hread hw
      uninit
    rw [hfield] at hload
    exact hload
  · intro f
    obtain ⟨p, hp, hfield⟩ := exists_entry (.inl f)
    obtain ⟨w, hread, hw⟩ := hstored p hp
    have hload := load_entry unspecified h hp (s := { cfg := c, nvs := stored }) hopens' hread hw
      uninit
    rw [hfield] at hload
    rw [cfgGet_getF hfield] at hw
    have hsame : (configLoad unspecified { cfg := c, nvs := stored } r' uninit).1.cfg.getF f = w :=
      hload
    rw [hsame]
    exact hw.elim Or.inl eq_or_zero_of_beq

end Lossless

/-- **Neither form moves a setting.**  For a configuration in range, a save over any
namespace is loaded again as the same configuration, up to the sign of a zero; the reply
with its values, sent back as a request on any snapshot, is the same configuration; and
`clampAll` leaves it alone. -/
theorem config_forms_lossless (unspecified : Float32 → Int) (c : KartConfig Float32)
    (h : c.InRange) :
    (∀ (ns : Namespace) (r r' : NvsResults) (uninit : KartConfig Float32), r.opens = true →
        (∀ key, r.sets key = true) → r'.opens = true →
        Restored c
          (configLoad unspecified (configSave { cfg := c, nvs := ns } r).1 r' uninit).1.cfg) ∧
      (∀ (s : ConfigStore) (r : NvsResults) (snapshot uninit : KartConfig Float32)
          (persist : Bool),
        (configUpdate unspecified s r ((encParamVals c).foldl (decSetParam unspecified snapshot)
          { cfg := uninit, touched := false }).cfg persist).cfg = c) ∧
      c.clampAll (lround unspecified) = c := by
  refine ⟨fun ns r r' uninit hopens hsets hopens' => ?_, fun s r snapshot uninit persist => ?_,
    clampAll_of_inRange unspecified h⟩
  · exact load_save unspecified h ns hopens hsets hopens' uninit
  · obtain ⟨pv, pvs, hpairs⟩ := List.exists_cons_of_ne_nil (encParamVals_ne_nil c)
    have hdraft := draft_eq_foldl unspecified snapshot uninit pv pvs
    rw [draft, ← hpairs, draft_reply unspecified h] at hdraft
    rw [configUpdate_cfg, hdraft, clampAll_of_inRange unspecified h]

theorem factoryCfg_inRange : factoryCfg.InRange := by decide +kernel

theorem factory_forms_lossless :
    factoryCfg.InRange ∧
      Restored factoryCfg (configLoad (fun _ => 0)
        (configSave { cfg := factoryCfg, nvs := blankStore.nvs } flashOk).1 flashOk
          factoryCfg).1.cfg ∧
      factoryCfg.clampAll (lround fun _ => 0) = factoryCfg := by
  obtain ⟨hstored, -, hclamp⟩ := config_forms_lossless (fun _ => 0) factoryCfg factoryCfg_inRange
  exact ⟨factoryCfg_inRange, hstored blankStore.nvs flashOk flashOk factoryCfg rfl (fun _ => rfl) rfl, hclamp⟩

/-- A zero deadzone that is negative. -/
def negZeroCfg : KartConfig Float32 := { factoryCfg with thrDeadzone := -0 }

/-- A zero dead zone is stored already, and comparing equal it is not written again: the
configuration is loaded with the other zero. -/
theorem stored_zero_keeps_its_sign :
    negZeroCfg.InRange ∧
      (configLoad (fun _ => 0)
        (configSave
          { cfg := negZeroCfg,
            nvs := fun key => if key = "thr_deadzone" then some (encodeFloat 0) else none }
          flashOk).1
        flashOk factoryCfg).1.cfg ≠ negZeroCfg := by
  refine ⟨by decide +kernel, ?_⟩
  intro hsame
  have hbits := congrArg (fun c => c.thrDeadzone.toBits) hsame
  revert hbits
  decide +kernel

end KartFirmware
